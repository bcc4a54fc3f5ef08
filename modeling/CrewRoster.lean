import CrewRoster.Main
import CrewRoster.Proofs.Calls
import CrewRoster.Proofs.Completion
import CrewRoster.Proofs.Outcome
import CrewRoster.Proofs.Protocol
import CrewRoster.Proofs.TimeOrder
import CrewRoster.Proofs.Grounds
import CrewRoster.Proofs.Reload
import CrewRoster.Proofs.Acceptance
import CrewRoster.Proofs.Airborne
import CrewRoster.Proofs.Sweep
import CrewRoster.Proofs.Answers
import CrewRoster.Proofs.Ids
import CrewRoster.Proofs.Applying
import CrewRoster.Proofs.Window
import CrewRoster.Proofs.Violations
import CrewRoster.Proofs.Neighbours
import CrewRoster.Proofs.Repositioning
import CrewRoster.Proofs.Connections
import CrewRoster.Proofs.Succession
import CrewRoster.Proofs.Inspection
import CrewRoster.Proofs.Frames
import CrewRoster.Proofs.RestAhead
import CrewRoster.Proofs.Overage
import CrewRoster.Proofs.Turnarounds
import CrewRoster.Proofs.DaysOff
import CrewRoster.Proofs.Crewing
import CrewRoster.Proofs.RestLack
import CrewRoster.Proofs.Offers
import CrewRoster.Proofs.Horizon
import CrewRoster.Proofs.WrittenLimits
import CrewRoster.Proofs.NearestEven
import CrewRoster.Proofs.DateIndex
import CrewRoster.Proofs.WholeMinutes
import CrewRoster.Proofs.SeatList

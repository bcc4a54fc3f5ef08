/-!
Registries: entries by key in the order in which the keys first came. Entering a key again keeps its
place and replaces what stands there.
-/

namespace CrewRoster

structure Registry (κ α : Type) where
  entries : List (κ × α)
  /-- No key has two entries. -/
  nodup : (entries.map (·.1)).Nodup
  deriving Repr

namespace Registry

variable {κ α β : Type}

def empty : Registry κ α := ⟨[], List.nodup_nil⟩

instance : Inhabited (Registry κ α) := ⟨empty⟩

def keys (r : Registry κ α) : List κ := r.entries.map (·.1)
def values (r : Registry κ α) : List α := r.entries.map (·.2)
def size (r : Registry κ α) : Nat := r.entries.length

/-- Changes what stands at every key. -/
def mapValues (r : Registry κ α) (f : α → β) : Registry κ β where
  entries := r.entries.map fun e => (e.1, f e.2)
  nodup := by simpa [List.map_map, Function.comp_def] using r.nodup

variable [DecidableEq κ]

def get? (r : Registry κ α) (k : κ) : Option α := r.entries.lookup k

def contains (r : Registry κ α) (k : κ) : Bool := (r.get? k).isSome

/-- Changes what stands at `k`, if there is something. -/
def modify (r : Registry κ α) (k : κ) (f : α → α) : Registry κ α where
  entries := r.entries.map fun e => if e.1 = k then (e.1, f e.2) else e
  nodup := by
    have h : (r.entries.map fun e => if e.1 = k then (e.1, f e.2) else e).map (·.1) =
        r.entries.map (·.1) := by
      rw [List.map_map]
      apply List.map_congr_left
      intro e _
      by_cases hk : e.1 = k <;> simp [hk]
    exact h ▸ r.nodup

/-- A key without an entry is none of the keys. -/
theorem not_mem_of_not_contains {r : Registry κ α} {k : κ} (h : ¬r.contains k) :
    k ∉ r.entries.map (·.1) := by
  intro hm
  obtain ⟨e, he, rfl⟩ := List.mem_map.1 hm
  apply h
  rw [contains, get?, List.lookup_isSome_iff]
  exact ⟨e, he, beq_self_eq_true _⟩

def insert (r : Registry κ α) (k : κ) (a : α) : Registry κ α :=
  if h : r.contains k then r.modify k fun _ => a
  else
    { entries := r.entries ++ [(k, a)]
      nodup := by
        rw [List.map_append, List.nodup_append]
        refine ⟨r.nodup, List.pairwise_singleton .., ?_⟩
        rintro _ hx _ hy rfl
        obtain rfl := List.mem_singleton.1 hy
        exact not_mem_of_not_contains h hx }

def ofList (es : List (κ × α)) : Registry κ α :=
  es.foldl (fun r e => r.insert e.1 e.2) empty

end Registry
end CrewRoster

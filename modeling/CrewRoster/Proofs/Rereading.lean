import CrewRoster.Document.Reader
import CrewRoster.Document.Writer
import CrewRoster.Proofs.Numerals
import Mathlib.Data.List.TakeWhile

namespace CrewRoster

namespace Document

-- A character that stands in a text as it is.
def PlainChar (c : Char) : Prop := 0x20 ≤ c.toNat ∧ c ≠ '"' ∧ c ≠ '\\' ∧ c ≠ Text.Point.mark

instance (c : Char) : Decidable (PlainChar c) := inferInstanceAs (Decidable (_ ∧ _))

def PlainText (s : String) : Prop := ∀ c ∈ s.toList, PlainChar c

instance (s : String) : Decidable (PlainText s) := List.decidableBAll PlainChar s.toList

open Reader Text

variable {c : Char} {cs : List Char} {s : String} {stack : List Frame} {closable : Bool}
  {fields : List (String × Document)}

section Texts

theorem flatMap_eq_self {f : Char → List Char} (h : ∀ c ∈ cs, f c = [c]) : cs.flatMap f = cs :=
  (List.flatMap_congr h).trans (List.flatMap_singleton' cs)

theorem allAfter_of_plain {found : List Point} (h : ∀ c ∈ cs, PlainChar c) :
    Point.allAfter found cs = found.reverse ++ cs.map .char := by
  induction cs generalizing found with
  | nil => simp [Point.allAfter]
  | cons c cs ih =>
    obtain ⟨hc, hcs⟩ := List.forall_mem_cons.1 h
    cases cs with
    | nil => simp [Point.allAfter]
    | cons d cs => rw [Point.allAfter, if_neg hc.2.2.2, ih hcs]; simp

theorem writeChar_of_plain (h : PlainChar c) : writeChar ⟨false⟩ c = [c] := by
  obtain ⟨hlow, hquote, hslash, -⟩ := h
  unfold writeChar
  split
  case h_8 => simp [Nat.not_lt.2 hlow]
  all_goals simp_all

theorem toList_writeText (h : PlainText s) : (writeText ⟨false⟩ s).toList = '"' :: s.toList ++ ['"'] := by
  rw [writeText, String.toList_ofList, Point.all, allAfter_of_plain h, List.reverse_nil, List.nil_append,
    List.flatMap_map]
  exact congrArg (fun cs => '"' :: cs ++ ['"']) (flatMap_eq_self fun c hc => writeChar_of_plain (h c hc))

-- The characters of a text are taken in one by one.
theorem run_text {named : Option (List (String × Document))} {read : List Point}
    (h : ∀ c ∈ cs, PlainChar c) :
    cs.foldlM step ⟨.text ⟨read, none, named⟩, stack⟩ =
      .ok ⟨.text ⟨(cs.map .char).reverse ++ read, none, named⟩, stack⟩ := by
  induction cs generalizing read with
  | nil => rfl
  | cons c cs ih =>
    obtain ⟨⟨hlow, hquote, hslash, -⟩, hcs⟩ := List.forall_mem_cons.1 h
    have hstep : step ⟨.text ⟨read, none, named⟩, stack⟩ c =
        .ok ⟨.text ⟨.char c :: read, none, named⟩, stack⟩ := by
      simp [step, stepText, hquote, hslash, Nat.not_lt.2 hlow, Spelling.push, Spelling.settled]
    rw [List.foldlM_cons, hstep, Result.ok_bind, ih hcs]
    simp

theorem text_of_plain {named : Option (List (String × Document))} (h : PlainText s) :
    Spelling.text ⟨(s.toList.map Point.char).reverse, none, named⟩ = s := by
  have hself : s.toList.flatMap (fun c => Point.carried (.char c)) = s.toList :=
    flatMap_eq_self fun c hc => if_neg (h c hc).2.2.2
  rw [Spelling.text, Spelling.settled, Option.map_none, Option.toList_none, List.nil_append,
    List.reverse_reverse, List.flatMap_map, hself, String.ofList_toList]

-- The quote that closes a text is taken in as it is met, with the whole text read.
theorem run_quoted {named : Option (List (String × Document))} (h : PlainText s) :
    (s.toList ++ ['"']).foldlM step ⟨.text (.begin named), stack⟩ = .ok (match named with
      | none => ⟨.after (.text s), stack⟩
      | some fields => ⟨.colon fields s, stack⟩) := by
  rw [Spelling.begin, List.foldlM_append, run_text h, Result.ok_bind, List.append_nil]
  cases named with
  | none =>
    change (.ok ⟨.after (.text (Spelling.text _)), stack⟩ : Result Reader) = _
    rw [text_of_plain h]
  | some fields =>
    change (.ok ⟨.colon fields (Spelling.text _), stack⟩ : Result Reader) = _
    rw [text_of_plain h]

theorem run_textValue (h : PlainText s) : (writeText ⟨false⟩ s).toList.foldlM step ⟨.value closable, stack⟩ =
    .ok ⟨.after (.text s), stack⟩ := by
  rw [toList_writeText h, List.cons_append, List.foldlM_cons]
  exact run_quoted h

theorem run_name (h : PlainText s) : (writeText ⟨false⟩ s).toList.foldlM step ⟨.name closable fields, stack⟩ =
    .ok ⟨.colon fields s, stack⟩ := by
  rw [toList_writeText h, List.cons_append, List.foldlM_cons]
  exact run_quoted h

end Texts

section Numbers

variable {k : Int} {n : ℕ}

theorem exists_cons_toDigits (n : ℕ) : ∃ c cs, Nat.toDigits 10 n = c :: cs :=
  List.exists_cons_of_ne_nil Nat.toDigits_ne_nil

theorem asciiDigit?_of_isDigit (h : c.isDigit = true) : asciiDigit? c = some (c.toNat - '0'.toNat) := by
  rw [asciiDigit?, if_pos]
  simpa [Char.isDigit, Char.le_def] using h

theorem digitsOf_of_isDigit (hne : cs ≠ []) (h : ∀ c ∈ cs, c.isDigit = true) :
    digitsOf cs = some (cs.map fun c => c.toNat - '0'.toNat) := by
  rw [digitsOf, if_neg (by simpa using hne)]
  clear hne
  induction cs with
  | nil => rfl
  | cons c cs ih =>
    obtain ⟨hc, hcs⟩ := List.forall_mem_cons.1 h
    rw [List.mapM_cons, asciiDigit?_of_isDigit hc, ih hcs]
    rfl

-- A number does not start with a zero, unless it is one.
theorem toDigits_ne_zero_cons (hne : cs ≠ []) : Nat.toDigits 10 n ≠ '0' :: cs := by
  induction n using Nat.strongRecOn generalizing cs with
  | ind n ih =>
    intro h
    rw [Nat.toDigits_eq_if (by decide)] at h
    split at h
    case isTrue => exact hne (List.cons.inj h).2.symm
    case isFalse hge =>
      obtain ⟨c, cs', hcs'⟩ := exists_cons_toDigits (n / 10)
      obtain rfl : c = '0' := by
        rw [hcs'] at h
        exact (List.cons.inj h).1
      rcases eq_or_ne cs' [] with rfl | hne'
      · have hzero : n / 10 = 0 := by
          rw [← Nat.ofDigitChars_ten_toDigits (n := n / 10), hcs']
          rfl
        omega
      · exact ih _ (by omega) hne' hcs'

theorem wholePart_toDigits (n : ℕ) : wholePart (Nat.toDigits 10 n) = (Nat.toDigits 10 n, []) := by
  unfold wholePart
  split
  case h_1 cs h =>
    rcases eq_or_ne cs [] with rfl | hne
    · rw [h]
    · exact absurd h (toDigits_ne_zero_cons hne)
  case h_2 =>
    have hall : ∀ c ∈ Nat.toDigits 10 n, c.isDigit = true := fun _ => isDigit_of_mem_toDigits
    rw [List.span_eq_takeWhile_dropWhile, List.takeWhile_eq_self_iff.2 hall, List.dropWhile_eq_nil_iff.2 hall]

theorem numberAt_toDigits (negative : Bool) (h : Legible n) :
    numberAt ((if negative then ['-'] else []) ++ Nat.toDigits 10 n) =
      .ok (.whole (if negative then -(n : Int) else n), []) := by
  have hdigits := digitsOf_of_isDigit Nat.toDigits_ne_nil fun c (hc : c ∈ Nat.toDigits 10 n) =>
    isDigit_of_mem_toDigits hc
  have hlength : ¬maxWholeDigits < (Nat.toDigits 10 n).length := Nat.not_lt.2 h
  unfold numberAt
  split
  case h_1 sign cs hm =>
    obtain ⟨rfl, rfl⟩ : negative = sign ∧ Nat.toDigits 10 n = cs := by
      cases negative with
      | true => exact Prod.mk.inj hm
      | false =>
        split at hm
        case h_1 he =>
          have he : Nat.toDigits 10 n = _ := he
          cases isDigit_of_mem_toDigits (he ▸ List.mem_cons_self : '-' ∈ Nat.toDigits 10 n)
        case h_2 => exact Prod.mk.inj hm
    simp only [wholePart_toDigits, fractionPart, exponentPart, hdigits, List.length_map, hlength, if_false,
      ofDigits_map, Nat.ofDigitChars_ten_toDigits]

theorem numberOf_toString (h : Legible k) : numberOf (toString k).toList = .ok (.whole k) := by
  have hn : Legible (k.natAbs : ℕ) := by rwa [Legible, Int.natAbs_natCast]
  have habs : (if decide (k < 0) then -(k.natAbs : Int) else k.natAbs) = k := by
    simp only [decide_eq_true_eq]
    split <;> omega
  rw [toList_toString, numberOf, numberAt_toDigits _ hn, Result.ok_bind, habs]
  rfl

theorem plainChar_of_isDigit (h : c.isDigit = true) : PlainChar c := by
  obtain ⟨hlow, hhigh⟩ := toNat_of_isDigit h
  refine ⟨by omega, ?_, ?_, ?_⟩ <;> rintro rfl <;> cases h

theorem plainText_toString (k : Int) : PlainText (toString k) := by
  intro c hc
  rw [toList_toString] at hc
  rcases List.mem_append.1 hc with hc | hc
  · split at hc
    · rw [List.mem_singleton.1 hc]
      decide
    · cases hc
  · exact plainChar_of_isDigit (isDigit_of_mem_toDigits hc)

theorem isNumberChar_of_isDigit (h : c.isDigit = true) : isNumberChar c = true := by
  simp [isNumberChar, h]

theorem run_number {read : List Char} (h : ∀ c ∈ cs, c.isDigit = true) :
    cs.foldlM step ⟨.number read, stack⟩ = .ok ⟨.number (cs.reverse ++ read), stack⟩ := by
  induction cs generalizing read with
  | nil => rfl
  | cons c cs ih =>
    obtain ⟨hc, hcs⟩ := List.forall_mem_cons.1 h
    have hstep : step ⟨.number read, stack⟩ c = .ok ⟨.number (c :: read), stack⟩ :=
      if_pos (isNumberChar_of_isDigit hc)
    rw [List.foldlM_cons, hstep, Result.ok_bind, ih hcs]
    simp

theorem stepValue_of_isDigit (h : c.isDigit = true) :
    stepValue closable stack c = .ok ⟨.number [c], stack⟩ := by
  have hspace : isSpace c = false := by
    simp only [isSpace, Bool.or_eq_false_iff, beq_eq_false_iff_ne]
    refine ⟨⟨⟨?_, ?_⟩, ?_⟩, ?_⟩ <;> rintro rfl <;> cases h
  unfold stepValue
  rw [if_neg (by simp [hspace])]
  split
  case h_10 => rw [if_pos (by simp [h])]
  all_goals cases h

theorem run_whole (k : Int) : (toString k).toList.foldlM step ⟨.value closable, stack⟩ =
    .ok ⟨.number (toString k).toList.reverse, stack⟩ := by
  rw [toList_toString]
  cases decide (k < 0) with
  | true =>
    rw [if_pos rfl, List.singleton_append, List.foldlM_cons]
    change (Nat.toDigits 10 k.natAbs).foldlM step ⟨.number ['-'], stack⟩ = _
    rw [run_number fun _ => isDigit_of_mem_toDigits, List.reverse_cons]
  | false =>
    obtain ⟨c, cs, hcs⟩ := exists_cons_toDigits k.natAbs
    have hall : ∀ d ∈ c :: cs, d.isDigit = true := fun _ hd => isDigit_of_mem_toDigits (hcs ▸ hd)
    obtain ⟨hc, hcs'⟩ := List.forall_mem_cons.1 hall
    rw [if_neg Bool.false_ne_true, List.nil_append, hcs, List.foldlM_cons]
    change stepValue closable stack c >>= _ = _
    rw [stepValue_of_isDigit hc, Result.ok_bind, run_number hcs', List.reverse_cons]

end Numbers

-- A reader that is done with a document, or finds that it is as soon as it meets what is no part of a number.
structure Settled (d : Document) (stack : List Frame) (r : Reader) : Prop where
  step : ∀ c, isNumberChar c = false → c ≠ 'I' → r.step c = stepAfter d stack c
  finish : r.finish = Reader.finish ⟨.after d, stack⟩

theorem Settled.after {d : Document} : Settled d stack ⟨.after d, stack⟩ :=
  ⟨fun _ _ _ => rfl, rfl⟩

theorem Settled.number {k : Int} (h : Legible k) :
    Settled (.whole k) stack ⟨.number (toString k).toList.reverse, stack⟩ := by
  have hnumber : numberOf (toString k).toList.reverse.reverse = .ok (.whole k) := by
    rw [List.reverse_reverse, numberOf_toString h]
  constructor
  case step =>
    intro c hc hI
    rw [Reader.step]
    dsimp only
    rw [stepNumber, if_neg (by simp [hc]), if_neg (by simp [hI]), hnumber]
    rfl
  case finish =>
    rw [Reader.finish]
    dsimp only
    rw [hnumber]
    rfl

mutual

-- A document without fractions, with texts and names that stand as they are, names that come once in their
-- objects, and lists and objects in at most so many layers.
def Plain : Document → ℕ → Prop
  | null, _ => True
  | flag _, _ => True
  | whole k, _ => Legible k
  | real _, _ => False
  | text s, _ => PlainText s
  | array _, 0 => False
  | array items, depth + 1 => PlainItems items depth
  | object _, 0 => False
  | object fields, depth + 1 => (fields.map (·.1)).Nodup ∧ PlainFields fields depth

def PlainItems : List Document → ℕ → Prop
  | [], _ => True
  | d :: ds, depth => Plain d depth ∧ PlainItems ds depth

def PlainFields : List (String × Document) → ℕ → Prop
  | [], _ => True
  | (name, d) :: fields, depth => PlainText name ∧ Plain d depth ∧ PlainFields fields depth

end

mutual

def decPlain : (d : Document) → (depth : ℕ) → Decidable (d.Plain depth)
  | null, _ => .isTrue trivial
  | flag _, _ => .isTrue trivial
  | whole k, _ => inferInstanceAs (Decidable (Legible k))
  | real _, _ => .isFalse id
  | text s, _ => inferInstanceAs (Decidable (PlainText s))
  | array _, 0 => .isFalse id
  | array items, depth + 1 => decPlainItems items depth
  | object _, 0 => .isFalse id
  | object fields, depth + 1 => @instDecidableAnd _ _ inferInstance (decPlainFields fields depth)

def decPlainItems : (ds : List Document) → (depth : ℕ) → Decidable (PlainItems ds depth)
  | [], _ => .isTrue trivial
  | d :: ds, depth => @instDecidableAnd _ _ (decPlain d depth) (decPlainItems ds depth)

def decPlainFields : (fields : List (String × Document)) → (depth : ℕ) → Decidable (PlainFields fields depth)
  | [], _ => .isTrue trivial
  | (_, d) :: fields, depth =>
    @instDecidableAnd _ _ inferInstance (@instDecidableAnd _ _ (decPlain d depth) (decPlainFields fields depth))

end

instance (fields : List (String × Document)) (depth : ℕ) : Decidable (PlainFields fields depth) :=
  decPlainFields fields depth

instance (d : Document) (depth : ℕ) : Decidable (d.Plain depth) := decPlain d depth

section Runs

variable {d : Document} {r : Reader}

theorem toList_enclose {items : List String} (opening closing : String) (hne : items ≠ []) :
    (Layout.line.enclose opening closing items).toList =
      opening.toList ++ ([',', ' '].intercalate (items.map String.toList) ++ closing.toList) := by
  rw [Layout.enclose, if_neg (by simpa using hne)]
  simp only [Layout.deeper, Layout.lineBreak, Layout.separator, String.toList_append, String.toList_intercalate,
    String.append_empty, List.append_assoc]
  rfl

theorem intercalate_cons {w : List Char} {ws : List (List Char)} (hne : ws ≠ []) :
    [',', ' '].intercalate (w :: ws) = w ++ ',' :: ' ' :: [',', ' '].intercalate ws := by
  obtain ⟨w', ws, rfl⟩ := List.exists_cons_of_ne_nil hne
  rw [List.intercalate_cons_cons, List.append_assoc]
  rfl

theorem foldlM_array (hroom : stack.length < maxDepth) :
    ('[' :: cs).foldlM step ⟨.value closable, stack⟩ = cs.foldlM step ⟨.value true, .array [] :: stack⟩ := by
  rw [List.foldlM_cons]
  change opened stack _ >>= _ = _
  rw [opened, if_pos hroom]
  rfl

theorem foldlM_object (hroom : stack.length < maxDepth) :
    ('\x7b' :: cs).foldlM step ⟨.value closable, stack⟩ = cs.foldlM step ⟨.name true [], stack⟩ := by
  rw [List.foldlM_cons]
  change opened stack _ >>= _ = _
  rw [opened, if_pos hroom]
  rfl

theorem Settled.run (h : Settled d stack r) (hc : isNumberChar c = false) (hI : c ≠ 'I') :
    (c :: cs).foldlM Reader.step r = stepAfter d stack c >>= fun r => cs.foldlM Reader.step r := by
  rw [List.foldlM_cons, h.step c hc hI]

theorem run_field {name : String} (hname : PlainText name)
    (h : (write ⟨false⟩ .line d).toList.foldlM step ⟨.value false, .object fields name :: stack⟩ = .ok r) :
    (writeText ⟨false⟩ name ++ ": " ++ write ⟨false⟩ .line d).toList.foldlM step
      ⟨.name closable fields, stack⟩ = .ok r := by
  rw [String.toList_append, String.toList_append, List.append_assoc, List.foldlM_append, run_name hname,
    Result.ok_bind]
  exact h

-- A name that comes for the first time has its field put behind the others.
theorem putField_of_nodup {name : String} {after : List (String × Document)}
    (h : ((fields.reverse ++ (name, d) :: after).map (·.1)).Nodup) :
    putField fields name d = (name, d) :: fields := by
  rw [putField, if_neg]
  rw [List.map_append, List.nodup_append] at h
  simp only [List.any_eq_true, beq_iff_eq, not_exists, not_and]
  intro f hf he
  exact h.2.2 f.1 (List.mem_map_of_mem (List.mem_reverse.2 hf)) name List.mem_cons_self he

end Runs

mutual

theorem run_write : ∀ (d : Document) (depth : ℕ) (stack : List Frame) (closable : Bool), d.Plain depth →
    stack.length + depth ≤ maxDepth → ∃ r,
      (write ⟨false⟩ .line d).toList.foldlM step ⟨.value closable, stack⟩ = .ok r ∧ Settled d stack r
  | null, _, _, _, _, _ => ⟨_, rfl, .after⟩
  | flag true, _, _, _, _, _ => ⟨_, rfl, .after⟩
  | flag false, _, _, _, _, _ => ⟨_, rfl, .after⟩
  | whole k, _, _, _, h, _ => ⟨_, run_whole k, .number h⟩
  | text s, _, _, _, h, _ => ⟨_, run_textValue h, .after⟩
  | array [], depth + 1, stack, closable, _, hdepth => by
    have hroom : stack.length < maxDepth := by omega
    exact ⟨_, foldlM_array hroom, .after⟩
  | array (d :: ds), depth + 1, stack, closable, h, hdepth => by
    have hroom : stack.length < maxDepth := by omega
    refine ⟨_, ?_, .after⟩
    rw [write, toList_enclose _ _ (by simp [writeItems])]
    exact (foldlM_array hroom).trans
      (run_writeItems (d :: ds) [] depth stack true (List.cons_ne_nil _ _) h (by omega))
  | object [], depth + 1, stack, closable, _, hdepth => by
    have hroom : stack.length < maxDepth := by omega
    exact ⟨_, foldlM_object hroom, .after⟩
  | object ((name, d) :: fields), depth + 1, stack, closable, h, hdepth => by
    have hroom : stack.length < maxDepth := by omega
    refine ⟨_, ?_, .after⟩
    rw [write, toList_enclose _ _ (by simp [writeFields])]
    exact (foldlM_object hroom).trans
      (run_writeFields ((name, d) :: fields) [] depth stack true (List.cons_ne_nil _ _) h.1 h.2 (by omega))

theorem run_writeItems : ∀ (ds items : List Document) (depth : ℕ) (stack : List Frame) (closable : Bool),
    ds ≠ [] → PlainItems ds depth → stack.length + 1 + depth ≤ maxDepth →
    ([',', ' '].intercalate ((writeItems ⟨false⟩ .line ds).map String.toList) ++ [']']).foldlM step
      ⟨.value closable, .array items :: stack⟩ = .ok ⟨.after (.array (items.reverse ++ ds)), stack⟩
  | [d], items, depth, stack, closable, _, h, hdepth => by
    obtain ⟨r, hr, hsettled⟩ := run_write d depth (.array items :: stack) closable h.1 hdepth
    simp only [writeItems, List.map_cons, List.map_nil, List.intercalate_singleton, List.foldlM_append, hr,
      Result.ok_bind]
    rw [hsettled.run rfl (by decide)]
    change (.ok ⟨.after (.array (d :: items).reverse), stack⟩ : Result Reader) = _
    rw [List.reverse_cons]
  | d :: d' :: ds, items, depth, stack, closable, _, h, hdepth => by
    obtain ⟨r, hr, hsettled⟩ := run_write d depth (.array items :: stack) closable h.1 hdepth
    have hrest := run_writeItems (d' :: ds) (d :: items) depth stack false (List.cons_ne_nil _ _) h.2 hdepth
    rw [List.reverse_cons, List.append_assoc] at hrest
    rw [writeItems, List.map_cons, intercalate_cons (by simp [writeItems]), List.append_assoc,
      List.foldlM_append, hr, Result.ok_bind, List.cons_append, hsettled.run rfl (by decide)]
    exact hrest

theorem run_writeFields : ∀ (fields before : List (String × Document)) (depth : ℕ) (stack : List Frame)
    (closable : Bool), fields ≠ [] → ((before.reverse ++ fields).map (·.1)).Nodup →
    PlainFields fields depth → stack.length + 1 + depth ≤ maxDepth →
    ([',', ' '].intercalate ((writeFields ⟨false⟩ .line fields).map String.toList) ++ ['\x7d']).foldlM step
      ⟨.name closable before, stack⟩ = .ok ⟨.after (.object (before.reverse ++ fields)), stack⟩
  | [(name, d)], before, depth, stack, closable, _, hnodup, h, hdepth => by
    obtain ⟨r, hr, hsettled⟩ := run_write d depth (.object before name :: stack) false h.2.1 hdepth
    simp only [writeFields, List.map_cons, List.map_nil, List.intercalate_singleton, List.foldlM_append,
      run_field h.1 hr, Result.ok_bind]
    rw [hsettled.run rfl (by decide)]
    change (.ok ⟨.after (.object (putField before name d).reverse), stack⟩ : Result Reader) = _
    rw [putField_of_nodup hnodup, List.reverse_cons]
  | (name, d) :: field :: fields, before, depth, stack, closable, _, hnodup, h, hdepth => by
    obtain ⟨r, hr, hsettled⟩ := run_write d depth (.object before name :: stack) false h.2.1 hdepth
    have hrest := run_writeFields (field :: fields) ((name, d) :: before) depth stack false
      (List.cons_ne_nil _ _) (by rwa [List.reverse_cons, List.append_assoc]) h.2.2 hdepth
    rw [List.reverse_cons, List.append_assoc] at hrest
    rw [writeFields, List.map_cons, intercalate_cons (by simp [writeFields]), List.append_assoc,
      List.foldlM_append, run_field h.1 hr, Result.ok_bind, List.cons_append, hsettled.run rfl (by decide)]
    change [' '].foldlM step ⟨.name false (putField before name d), stack⟩ >>= _ = _
    rw [putField_of_nodup hnodup]
    exact hrest

end

-- What is written on one line is read back.
theorem parse_compact {d : Document} {depth : ℕ} (h : d.Plain depth) (hdepth : depth ≤ maxDepth) :
    parse (compact d) = .ok d := by
  obtain ⟨r, hr, hsettled⟩ := run_write d depth [] false h (by simpa using hdepth)
  change (write ⟨false⟩ .line d).toList.foldlM step ⟨.value false, []⟩ >>= _ = _
  rw [hr, Result.ok_bind, hsettled.finish]
  rfl

end Document

end CrewRoster

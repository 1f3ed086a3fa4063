/-
# Slot targets of the charm search

The charm search is told which slots a charm must have by a text, one target a line:
three digits from 0 to 4. `parseSlotTargets` reads it into a set of `TargetSlot`s, each
with its levels in descending order, and `checkSlot` asks whether the levels of a charm
are, place by place, at least those of one of them.

A charm satisfies a target if the levels of the target can be assigned one to one to the
slots of the charm. The slots of a charm descend as well, so that comparing place by
place decides it (`isMatch_target`). What is read is a set of lines: the blank ones, the
order and the repetitions make no difference (`mem_loaded`).
-/
import PGCon.Assignment
import PGCon.Effect
import PGCon.Text

namespace PGCon
namespace CharmSlots

open Assignment Effect Text

/-! ### The script -/

/-- `AlertErrorException`, with its message. -/
structure AlertErrorException where
  message : JavaString
  deriving DecidableEq

/-- `TargetSlot`; two with the same levels are equal. -/
structure TargetSlot where
  slot1 : ℤ
  slot2 : ℤ
  slot3 : ℤ
  deriving DecidableEq, Repr

def TargetSlot.isMatch (t : TargetSlot) (slot1 slot2 slot3 : ℤ) : Bool :=
  t.slot1 ≤ slot1 && t.slot2 ≤ slot2 && t.slot3 ≤ slot3

def invalid (trim : JavaString) : AlertErrorException := ⟨lit "Invalid slot target: " ++ trim⟩

/-- The level a character of the line stands for. -/
def parseLevel (trim : JavaString) (c : JavaChar) : Except AlertErrorException ℤ :=
  if c < 48 ∨ c > 52 then .error (invalid trim) else .ok (c.toNat - 48)

/-- A line that is not blank. -/
def parseSlotTarget (trim : JavaString) : Except AlertErrorException TargetSlot :=
  if trim.length ≠ 3 then .error (invalid trim)
  else do
    let list ← trim.mapM (parseLevel trim)
    let list := list.insertionSort (· ≥ ·)
    -- there are three
    return ⟨list.getD 0 0, list.getD 1 0, list.getD 2 0⟩

def addSlotTarget (targetSlotSet : Finset TargetSlot) (targetSlot : JavaString) :
    Except AlertErrorException (Finset TargetSlot) :=
  if (trim targetSlot).length = 0 then .ok targetSlotSet
  else do
    let target ← parseSlotTarget (trim targetSlot)
    return insert target targetSlotSet

def parseSlotTargets (targetSlots : JavaString) : Except AlertErrorException (Finset TargetSlot) :=
  (split (unit '\n') targetSlots).foldlM addSlotTarget ∅

def checkSlot (slotTargets : List TargetSlot) (o1 o2 o3 : ℤ) : Bool :=
  slotTargets.any fun slotTarget => slotTarget.isMatch o1 o2 o3

/-- `slotTargets.addAll(parseSlotTargets(text))`, in whatever order the set has. -/
def Loaded (text : JavaString) (slotTargets : List TargetSlot) : Prop :=
  parseSlotTargets text = .ok slotTargets.toFinset

/-! ### What it is for -/

/-- The lines of a text. -/
def lines (text : JavaString) : List JavaString := text.splitOn (unit '\n')

def IsLevel (c : JavaChar) : Prop := unit '0' ≤ c ∧ c ≤ unit '4'

/-- Three characters from `0` to `4`. -/
def IsTarget (trim : JavaString) : Prop := trim.length = 3 ∧ ∀ c ∈ trim, IsLevel c

/-- The levels written. -/
def levels (trim : JavaString) : List ℤ := trim.map fun c => (c.toNat : ℤ) - 48

/-- A charm with these slots has what one of the lines asks for. -/
def Satisfies (text : JavaString) (o1 o2 o3 : ℤ) : Prop :=
  ∃ line ∈ lines text, trim line ≠ [] ∧ Assignable (levels (trim line)) [o1, o2, o3]

/-- A line that can stand in the text. -/
def Fine (line : JavaString) : Prop := trim line = [] ∨ IsTarget (trim line)

/-! ### One line -/

/-- The target a line comes to. -/
def target (trim : JavaString) : TargetSlot :=
  let list := (levels trim).insertionSort (· ≥ ·)
  ⟨list.getD 0 0, list.getD 1 0, list.getD 2 0⟩

theorem not_isLevel_iff (c : JavaChar) : ¬ IsLevel c ↔ c < 48 ∨ c > 52 := by
  unfold IsLevel unit
  rw [not_and_or, BitVec.not_le, BitVec.not_le]
  rfl

theorem parseLevel_of_isLevel (trim : JavaString) {c : JavaChar} (h : IsLevel c) :
    parseLevel trim c = .ok ((c.toNat : ℤ) - 48) := by
  rw [parseLevel, if_neg]
  rw [← not_isLevel_iff, not_not]
  exact h

theorem parseLevel_of_not_isLevel (trim : JavaString) {c : JavaChar} (h : ¬ IsLevel c) :
    parseLevel trim c = .error (invalid trim) := by
  rw [parseLevel, if_pos ((not_isLevel_iff c).mp h)]

theorem mapM_parseLevel (trim : JavaString) : ∀ {cs : JavaString}, (∀ c ∈ cs, IsLevel c) →
    cs.mapM (parseLevel trim) = .ok (levels cs)
  | [], _ => rfl
  | c :: cs, h => by
    rw [List.forall_mem_cons] at h
    rw [List.mapM_cons, parseLevel_of_isLevel trim h.1, ok_bind, mapM_parseLevel trim h.2]
    rfl

theorem mapM_parseLevel_error (trim : JavaString) : ∀ {cs : JavaString}, ¬ (∀ c ∈ cs, IsLevel c) →
    cs.mapM (parseLevel trim) = .error (invalid trim)
  | [], h => absurd (List.forall_mem_nil _) h
  | c :: cs, h => by
    rw [List.mapM_cons]
    by_cases hc : IsLevel c
    · have hcs : ¬ ∀ c ∈ cs, IsLevel c := fun hcs => h (List.forall_mem_cons.mpr ⟨hc, hcs⟩)
      rw [parseLevel_of_isLevel trim hc, ok_bind, mapM_parseLevel_error trim hcs]
      rfl
    · rw [parseLevel_of_not_isLevel trim hc]
      rfl

theorem parseSlotTarget_of_isTarget {trim : JavaString} (h : IsTarget trim) :
    parseSlotTarget trim = .ok (target trim) := by
  rw [parseSlotTarget, if_neg (not_not.mpr h.1), mapM_parseLevel trim h.2]
  rfl

theorem parseSlotTarget_of_not_isTarget {trim : JavaString} (h : ¬ IsTarget trim) :
    parseSlotTarget trim = .error (invalid trim) := by
  rw [parseSlotTarget]
  by_cases hlen : trim.length = 3
  · have hcs : ¬ ∀ c ∈ trim, IsLevel c := fun hcs => h ⟨hlen, hcs⟩
    rw [if_neg (not_not.mpr hlen), mapM_parseLevel_error trim hcs]
    rfl
  · rw [if_pos hlen]

example : parseSlotTarget (lit "013") = .ok ⟨3, 1, 0⟩ := by decide +kernel

/-- The levels of a charm that descend meet the target exactly if those written can be
assigned to them. -/
theorem isMatch_target {trim : JavaString} (h : trim.length = 3) {o1 o2 o3 : ℤ} (h12 : o2 ≤ o1) (h23 : o3 ≤ o2) :
    (target trim).isMatch o1 o2 o3 = true ↔ Assignable (levels trim) [o1, o2, o3] := by
  have hdesc : [o1, o2, o3].Pairwise (· ≥ ·) := by
    simp [h12, h23, h23.trans h12]
  have hlen : ((levels trim).insertionSort (· ≥ ·)).length = 3 := by
    rw [List.length_insertionSort, levels, List.length_map, h]
  obtain ⟨a, b, c, hsorted⟩ := List.length_eq_three.mp hlen
  rw [assignable_iff_sorted hdesc, target, hsorted]
  simp [TargetSlot.isMatch, and_assoc]

/-! ### The text -/

theorem addSlotTarget_of_blank (set : Finset TargetSlot) {line : JavaString} (h : trim line = []) :
    addSlotTarget set line = .ok set := by
  simp [addSlotTarget, h]

theorem addSlotTarget_of_target (set : Finset TargetSlot) {line : JavaString} (h : IsTarget (trim line)) :
    addSlotTarget set line = .ok (insert (target (trim line)) set) := by
  have hne : ¬ (trim line).length = 0 := by
    rw [h.1]
    decide
  rw [addSlotTarget, if_neg hne, parseSlotTarget_of_isTarget h]
  rfl

theorem addSlotTarget_of_not_fine (set : Finset TargetSlot) {line : JavaString} (h : ¬ Fine line) :
    addSlotTarget set line = .error (invalid (trim line)) := by
  rw [Fine, not_or] at h
  rw [addSlotTarget, if_neg (by simp [h.1]), parseSlotTarget_of_not_isTarget h.2]
  rfl

/-- The loop, line by line: it adds the target of each line that is not blank. -/
theorem addSlotTargets_ok : ∀ (ls : List JavaString) (set : Finset TargetSlot), (∀ line ∈ ls, Fine line) →
    ∃ targets, ls.foldlM addSlotTarget set = .ok targets ∧
      ∀ t, t ∈ targets ↔ t ∈ set ∨ ∃ line ∈ ls, trim line ≠ [] ∧ t = target (trim line)
  | [], set, _ => ⟨set, rfl, by simp⟩
  | line :: ls, set, h => by
    have hls : ∀ line ∈ ls, Fine line := fun l hl => h l (List.mem_cons_of_mem _ hl)
    rcases h line List.mem_cons_self with hblank | htarget
    · obtain ⟨targets, hok, hmem⟩ := addSlotTargets_ok ls set hls
      refine ⟨targets, ?_, ?_⟩
      · rw [List.foldlM_cons, addSlotTarget_of_blank set hblank]
        exact hok
      · simp [hmem, hblank]
    · obtain ⟨targets, hok, hmem⟩ := addSlotTargets_ok ls (insert (target (trim line)) set) hls
      have hne : trim line ≠ [] := by
        intro hnil
        simp [IsTarget, hnil] at htarget
      refine ⟨targets, ?_, ?_⟩
      · rw [List.foldlM_cons, addSlotTarget_of_target set htarget]
        exact hok
      · intro t
        simp only [hmem, Finset.mem_insert, List.mem_cons, exists_eq_or_imp, hne, ne_eq, not_false_iff, true_and]
        tauto

/-- It ends at the first line that is not fine, which its message names. -/
theorem addSlotTargets_error {before after : List JavaString} {line : JavaString} (set : Finset TargetSlot)
    (hbefore : ∀ line ∈ before, Fine line) (h : ¬ Fine line) :
    (before ++ line :: after).foldlM addSlotTarget set = .error (invalid (trim line)) := by
  obtain ⟨targets, hok, -⟩ := addSlotTargets_ok before set hbefore
  rw [List.foldlM_append, hok, ok_bind, List.foldlM_cons, addSlotTarget_of_not_fine targets h]
  rfl

theorem fine_split_iff (text : JavaString) :
    (∀ line ∈ split (unit '\n') text, Fine line) ↔ ∀ line ∈ lines text, Fine line := by
  apply forall_congr'
  intro line
  rcases eq_or_ne line [] with rfl | hne
  · have hblank : Fine [] := .inl rfl
    simp [hblank]
  · rw [mem_split hne, lines]

/-- The targets are those of the lines that are not blank. -/
theorem parseSlotTargets_ok {text : JavaString} (h : ∀ line ∈ lines text, Fine line) :
    ∃ targets, parseSlotTargets text = .ok targets ∧
      ∀ t, t ∈ targets ↔ ∃ line ∈ lines text, trim line ≠ [] ∧ t = target (trim line) := by
  obtain ⟨targets, hok, hmem⟩ := addSlotTargets_ok _ ∅ ((fine_split_iff text).mpr h)
  refine ⟨targets, hok, fun t => ?_⟩
  simp only [hmem, Finset.notMem_empty, false_or]
  apply exists_congr
  intro line
  apply and_congr_left
  rintro ⟨hne, -⟩
  have hline : line ≠ [] := by
    rintro rfl
    exact hne rfl
  rw [mem_split hline, lines]

/-- A line that is not fine ends it, and the first such line is named. -/
theorem parseSlotTargets_error {text : JavaString} (h : ¬ ∀ line ∈ lines text, Fine line) :
    ∃ line, ¬ Fine line ∧ parseSlotTargets text = .error (invalid (trim line)) := by
  rw [← fine_split_iff] at h
  obtain ⟨before, line, after, hcut, hbefore, hline⟩ := exists_first_not h
  refine ⟨line, hline, ?_⟩
  rw [parseSlotTargets, hcut]
  exact addSlotTargets_error ∅ hbefore hline

theorem error_iff (text : JavaString) :
    (∃ e, parseSlotTargets text = .error e) ↔ ∃ line ∈ lines text, ¬ Fine line := by
  constructor
  · rintro ⟨e, he⟩
    by_contra hall
    push Not at hall
    obtain ⟨targets, hok, -⟩ := parseSlotTargets_ok hall
    rw [hok] at he
    cases he
  · rintro ⟨line, hline, hbad⟩
    obtain ⟨first, -, herror⟩ := parseSlotTargets_error fun hall => hbad (hall line hline)
    exact ⟨_, herror⟩

theorem mem_loaded {text : JavaString} {slotTargets : List TargetSlot} (h : Loaded text slotTargets) :
    (∀ line ∈ lines text, Fine line) ∧
      ∀ t, t ∈ slotTargets ↔ ∃ line ∈ lines text, trim line ≠ [] ∧ t = target (trim line) := by
  have hfine : ∀ line ∈ lines text, Fine line := by
    by_contra hall
    obtain ⟨line, -, herror⟩ := parseSlotTargets_error hall
    rw [Loaded, herror] at h
    cases h
  obtain ⟨targets, hok, hmem⟩ := parseSlotTargets_ok hfine
  rw [Loaded, hok] at h
  obtain rfl : targets = slotTargets.toFinset := Except.ok.inj h
  refine ⟨hfine, fun t => ?_⟩
  rw [← List.mem_toFinset, hmem]

/-- For every text: an `AlertErrorException` is raised exactly if some line, trimmed, is
neither empty nor three characters from `0` to `4`. Otherwise, whatever the order of the
targets, a charm whose slots descend is accepted exactly if it satisfies a line; and a
text with the same lines, in another order or more often, has every charm accepted that
this one has. -/
theorem accepts_exactly (text : JavaString) :
    ((∃ e, parseSlotTargets text = .error e) ↔ ∃ line ∈ lines text, ¬ (trim line = [] ∨ IsTarget (trim line))) ∧
    ((¬ ∃ e, parseSlotTargets text = .error e) → ∃ slotTargets, Loaded text slotTargets) ∧
    ∀ slotTargets, Loaded text slotTargets →
      (∀ o1 o2 o3 : ℤ, o2 ≤ o1 → o3 ≤ o2 →
        (checkSlot slotTargets o1 o2 o3 = true ↔ Satisfies text o1 o2 o3)) ∧
      ∀ text' slotTargets', (∀ line, line ∈ lines text' ↔ line ∈ lines text) → Loaded text' slotTargets' →
        checkSlot slotTargets' = checkSlot slotTargets := by
  refine ⟨error_iff text, ?_, fun slotTargets hloaded => ?_⟩
  · intro hno
    rcases hparse : parseSlotTargets text with e | targets
    · exact absurd ⟨e, hparse⟩ hno
    · exact ⟨targets.toList, by rw [Loaded, hparse, Finset.toList_toFinset]⟩
  obtain ⟨hfine, hmem⟩ := mem_loaded hloaded
  constructor
  · intro o1 o2 o3 h12 h23
    rw [checkSlot, List.any_eq_true]
    constructor
    · rintro ⟨t, ht, hmatch⟩
      obtain ⟨line, hline, hne, rfl⟩ := (hmem t).mp ht
      have htarget := (hfine line hline).resolve_left hne
      exact ⟨line, hline, hne, (isMatch_target htarget.1 h12 h23).mp hmatch⟩
    · rintro ⟨line, hline, hne, hassign⟩
      have htarget := (hfine line hline).resolve_left hne
      exact ⟨target (trim line), (hmem _).mpr ⟨line, hline, hne, rfl⟩,
        (isMatch_target htarget.1 h12 h23).mpr hassign⟩
  · intro text' slotTargets' hsame hloaded'
    obtain ⟨-, hmem'⟩ := mem_loaded hloaded'
    have heq : ∀ t, t ∈ slotTargets' ↔ t ∈ slotTargets := by
      intro t
      rw [hmem', hmem]
      simp only [hsame]
    funext o1 o2 o3
    rw [Bool.eq_iff_iff, checkSlot, checkSlot, List.any_eq_true, List.any_eq_true]
    simp only [heq]

end CharmSlots
end PGCon

/-
# Texts

A Java string is a list of UTF-16 code units; `lit` is a literal. `indexOf` answers
where a pattern first occurs: the text is cut there into a part without it, the pattern
and the rest (`of_indexOf_eq_some`), and a pattern that does not have its first unit twice
cannot overlap itself, so every such cut is found (`indexOf_append`). `strip` takes away
at both ends what meets a condition, and what stands between two units it leaves is left
whole (`mem_strip`). `split` misses empty parts at most (`mem_split`).
-/
import Mathlib

namespace PGCon
namespace Text

/-- `char`. -/
abbrev JavaChar := BitVec 16

/-- `String`. -/
abbrev JavaString := List JavaChar

/-- A character of a literal, from the basic plane. -/
def unit (c : Char) : JavaChar := BitVec.ofNat 16 c.toNat

/-- A string literal. -/
def lit (s : String) : JavaString := s.toList.map unit

variable {α : Type*}

/-- `substring(start, stop)`; `none` is the exception. -/
def substring (text : List α) (start stop : ℕ) : Option (List α) :=
  if start ≤ stop ∧ stop ≤ text.length then some ((text.drop start).take (stop - start)) else none

theorem substring_append (before between after : List α) :
    substring (before ++ (between ++ after)) before.length (before.length + between.length) = some between := by
  rw [substring, if_pos ⟨Nat.le_add_right _ _, by simp⟩, List.drop_left, Nat.add_sub_cancel_left, List.take_left]

/-- A text ends in its rest, or where that is empty. -/
theorem last_or (before : List α) {rest : List α} {c d : α} (h : (before ++ d :: rest).getLast? = some c) :
    c = d ∨ rest.getLast? = some c := by
  rw [← List.singleton_append, ← List.append_assoc, List.getLast?_append] at h
  rcases hrest : rest.getLast? with - | e
  · rw [hrest, List.getLast?_concat] at h
    exact .inl (Option.some.inj h).symm
  · rw [hrest] at h
    exact .inr h

/-! ### Searching -/

section Search

variable [DecidableEq α]

/-- `indexOf(pattern)`, where a Java program gets -1 for `none`. -/
def indexOf (pattern : List α) : List α → Option ℕ
  | [] => if pattern = [] then some 0 else none
  | c :: text => if pattern <+: c :: text then some 0 else (indexOf pattern text).map (· + 1)

/-- `indexOf(pattern, start)`. -/
def indexFrom (pattern text : List α) (start : ℕ) : Option ℕ := (indexOf pattern (text.drop start)).map (start + ·)

/-- `lastIndexOf(c)`. -/
def lastIndexOf (c : α) (text : List α) : Option ℕ :=
  (indexOf [c] text.reverse).map fun n => text.length - 1 - n

variable {c : α} {rest text before after : List α}

theorem indexOf_eq_none_iff (pattern : List α) : ∀ text : List α, indexOf pattern text = none ↔ ¬ pattern <:+: text
  | [] => by simp [indexOf]
  | c :: text => by
    rw [indexOf, List.infix_cons_iff]
    by_cases h : pattern <+: c :: text
    · simp [h]
    · simp [h, indexOf_eq_none_iff pattern text]

/-- Before its first occurrence the pattern does not occur. -/
theorem of_indexOf_eq_some {pattern : List α} : ∀ {text : List α} {n : ℕ}, pattern ≠ [] → indexOf pattern text = some n →
    ∃ before after, text = before ++ (pattern ++ after) ∧ before.length = n ∧ ¬ pattern <:+: before
  | [], n, hne, h => by simp [indexOf, hne] at h
  | c :: text, n, hne, h => by
    rw [indexOf] at h
    by_cases hp : pattern <+: c :: text
    · obtain ⟨after, hafter⟩ := hp
      rw [if_pos ⟨after, hafter⟩] at h
      refine ⟨[], after, hafter.symm, Option.some.inj h, ?_⟩
      rwa [List.infix_nil]
    · rw [if_neg hp, Option.map_eq_some_iff] at h
      obtain ⟨m, hm, rfl⟩ := h
      obtain ⟨before, after, rfl, rfl, hbefore⟩ := of_indexOf_eq_some hne hm
      refine ⟨c :: before, after, rfl, rfl, fun hin => ?_⟩
      rcases List.infix_cons_iff.mp hin with hpre | hin
      · exact hp (hpre.trans (List.prefix_append (c :: before) _))
      · exact hbefore hin

omit [DecidableEq α] in
/-- A pattern that has its first unit only once does not begin before the place where it
stands and end after it. -/
theorem prefix_of_prefix_append (hc : c ∉ rest) (hne : before ≠ [])
    (h : (c :: rest) <+: before ++ (c :: rest ++ after)) : (c :: rest) <+: before := by
  rcases List.prefix_or_prefix_of_prefix h (List.prefix_append before _) with hp | ⟨y, hy⟩
  · exact hp
  · rcases y with - | ⟨d, y⟩
    · exact ⟨[], by rw [← hy, List.append_nil, List.append_nil]⟩
    · -- what sticks out begins with the first unit again
      exfalso
      rw [← hy, List.prefix_append_right_inj, hy, List.cons_append] at h
      obtain rfl : d = c := (List.cons_prefix_cons.mp h).1
      obtain ⟨b, before, rfl⟩ := List.exists_cons_of_ne_nil hne
      have hrest : before ++ d :: y = rest := (List.cons.inj hy).2
      exact hc (by rw [← hrest]; simp)

theorem indexOf_append (hc : c ∉ rest) : ∀ {before : List α}, ¬ (c :: rest) <:+: before →
    indexOf (c :: rest) (before ++ (c :: rest ++ after)) = some before.length
  | [], _ => by
    have hp : (c :: rest) <+: c :: (rest ++ after) := ⟨after, rfl⟩
    rw [List.nil_append, List.cons_append, indexOf, if_pos hp]
    rfl
  | b :: before, h => by
    rw [List.infix_cons_iff, not_or] at h
    have hp : ¬ (c :: rest) <+: b :: (before ++ (c :: rest ++ after)) := fun hp =>
      h.1 (prefix_of_prefix_append hc (List.cons_ne_nil b before) hp)
    rw [List.cons_append, indexOf, if_neg hp, indexOf_append hc h.2]
    rfl

/-- The first place of one unit. -/
theorem indexOf_unit (h : c ∉ before) : indexOf [c] (before ++ c :: after) = some before.length :=
  indexOf_append (List.not_mem_nil) (by rwa [List.singleton_infix_iff])

theorem indexOf_unit_eq_none (h : c ∉ text) : indexOf [c] text = none := by
  rwa [indexOf_eq_none_iff, List.singleton_infix_iff]

end Search

/-! ### Trimming -/

section Strip

variable {p : α → Bool}

/-- What is left between the ends that meet `p`. -/
def strip (p : α → Bool) (text : List α) : List α := (text.dropWhile p).rdropWhile p

theorem dropWhile_append_of_all {l m : List α} (h : ∀ x ∈ l, p x) : (l ++ m).dropWhile p = m.dropWhile p := by
  rw [List.dropWhile_append, if_pos]
  rw [List.isEmpty_iff, List.dropWhile_eq_nil_iff]
  exact h

theorem rdropWhile_append_of_all {l m : List α} (h : ∀ x ∈ m, p x) : (l ++ m).rdropWhile p = l.rdropWhile p := by
  rw [List.rdropWhile, List.rdropWhile, List.reverse_append,
    dropWhile_append_of_all fun x hx => h x (List.mem_reverse.mp hx)]

/-- What is stripped anyway makes no difference. -/
theorem strip_append {left text right : List α} (hl : ∀ x ∈ left, p x) (hr : ∀ x ∈ right, p x) :
    strip p (left ++ (text ++ right)) = strip p text := by
  unfold strip
  rw [dropWhile_append_of_all hl, List.dropWhile_append]
  split
  · rename_i hempty
    rw [List.isEmpty_iff] at hempty
    have hnil : right.dropWhile p = [] := List.dropWhile_eq_nil_iff.mpr hr
    rw [hempty, hnil]
  · rw [rdropWhile_append_of_all hr]

theorem dropWhile_append_cons {l m : List α} {a : α} (ha : ¬ p a) :
    ∃ l', (l ++ a :: m).dropWhile p = l' ++ a :: m := by
  induction l with
  | nil => exact ⟨[], by simp [ha]⟩
  | cons b l ih =>
    by_cases hb : p b
    · obtain ⟨l', hl'⟩ := ih
      exact ⟨l', by rw [List.cons_append, List.dropWhile_cons_of_pos hb, hl']⟩
    · exact ⟨b :: l, by rw [List.cons_append, List.dropWhile_cons_of_neg hb]⟩

/-- What stands between two units that stay stays. -/
theorem mem_strip (left right : List α) {middle : List α} {a b x : α} (ha : ¬ p a) (hb : ¬ p b) (hx : x ∈ middle) :
    x ∈ strip p (left ++ a :: (middle ++ b :: right)) := by
  obtain ⟨left', hleft⟩ := dropWhile_append_cons (l := left) (m := middle ++ b :: right) ha
  obtain ⟨right', hright⟩ := dropWhile_append_cons (l := right.reverse) (m := (left' ++ a :: middle).reverse) hb
  have hrev : (left' ++ a :: (middle ++ b :: right)).reverse = right.reverse ++ b :: (left' ++ a :: middle).reverse := by
    simp
  rw [strip, hleft, List.rdropWhile, hrev, hright]
  simp [hx]

end Strip

/-- `trim()`. -/
def trim (s : JavaString) : JavaString := strip (fun c => decide (c ≤ 0x20)) s

/-! ### Splitting -/

section Split

variable [DecidableEq α]

/-- `split` at one unit that is no metacharacter: the text itself without it, and else the
parts but for the empty ones at the end. -/
def split (c : α) (text : List α) : List (List α) :=
  if c ∈ text then (text.splitOn c).rdropWhile (· = []) else [text]

/-- Empty parts are missing at the end. -/
theorem exists_splitOn_eq (c : α) (text : List α) :
    ∃ missing, text.splitOn c = split c text ++ missing ∧ ∀ part ∈ missing, part = [] := by
  rw [split]
  split
  · refine ⟨(text.splitOn c).rtakeWhile (· = []), ?_, fun part hpart => ?_⟩
    · rw [List.rdropWhile, List.rtakeWhile, ← List.reverse_append, List.takeWhile_append_dropWhile, List.reverse_reverse]
    · simpa using List.mem_rtakeWhile_imp hpart
  · rename_i hc
    refine ⟨[], ?_, List.forall_mem_nil _⟩
    rw [List.append_nil, List.splitOn, List.splitOnP_eq_singleton]
    rintro d hd
    simp only [beq_eq_false_iff_ne]
    rintro rfl
    exact hc hd

/-- Only empty parts can be missing. -/
theorem mem_split {c : α} {text part : List α} (h : part ≠ []) : part ∈ split c text ↔ part ∈ text.splitOn c := by
  rw [split]
  split
  · rw [List.rdropWhile, List.mem_reverse]
    constructor
    · intro hin
      exact List.mem_reverse.mp ((List.dropWhile_sublist _).mem hin)
    · intro hin
      have hcut := List.takeWhile_append_dropWhile (p := fun l => decide (l = [])) (l := (text.splitOn c).reverse)
      rw [← List.mem_reverse, ← hcut, List.mem_append] at hin
      rcases hin with hin | hin
      · have hempty := List.mem_takeWhile_imp hin
        simp [h] at hempty
      · exact hin
  · rename_i hc
    rw [List.splitOn, List.splitOnP_eq_singleton]
    rintro d hd
    simp only [beq_eq_false_iff_ne]
    rintro rfl
    exact hc hd

end Split

end Text
end PGCon

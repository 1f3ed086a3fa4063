/-
# Calls in lines

Builder code is a text with a call in every line: a dot, a name, and an argument in brackets. A name is
looked up in a table, an argument is one of some words, a number, or itself an application. Such a
text is read as it was written (`splitOn_lines`, `mapM_readLine`) as long as no argument has a line
break in it.
-/
import Mathlib

namespace PGCon
namespace CallLines

/-! ### Tables and words -/

section

variable {β : Type}

/-- What a table has under this name. -/
def lookup (table : List (String × β)) (t : List Char) : Option β :=
  (table.find? fun entry => entry.1.toList = t).map Prod.snd

theorem lookup_of_mem {table : List (String × β)} (hnodup : (table.map Prod.fst).Nodup) {name : String} {b : β}
    (h : (name, b) ∈ table) : lookup table name.toList = some b := by
  unfold lookup
  cases hfind : table.find? fun entry => entry.1.toList = name.toList with
  | none =>
    have hother := List.find?_eq_none.mp hfind (name, b) h
    exact absurd (decide_eq_true rfl) hother
  | some entry =>
    have hsame := List.find?_some hfind
    have hname : entry.1 = name := String.toList_inj.mp (of_decide_eq_true hsame)
    have hentry : entry = (name, b) :=
      List.inj_on_of_nodup_map hnodup (List.mem_of_find?_eq_some hfind) h hname
    rw [hentry]
    rfl

/-- What is written for the values of a type: no two are written alike, and no line ends within one. -/
structure Words (β : Type) where
  text : β → String
  values : List β
  complete : ∀ b, b ∈ values
  nodup : (values.map text).Nodup
  not_mem : ∀ b, '\n' ∉ (text b).toList

def Words.read (words : Words β) : List Char → Option β := lookup (words.values.map fun b => (words.text b, b))

theorem Words.read_text (words : Words β) (b : β) : words.read (words.text b).toList = some b := by
  refine lookup_of_mem ?_ (List.mem_map_of_mem (words.complete b))
  rw [List.map_map]
  exact words.nodup

theorem nodup_append {name : β → String} {values : List β} (h : (values.map name).Nodup) (start : String) :
    (values.map fun b => start ++ name b).Nodup := by
  have hmap := h.map fun a b hab => String.append_right_inj start |>.mp hab
  rwa [List.map_map] at hmap

theorem not_mem_append {c : Char} {a b : String} (ha : c ∉ a.toList) (hb : c ∉ b.toList) : c ∉ (a ++ b).toList := by
  rw [String.toList_append]
  exact List.not_mem_append ha hb

end

/-! ### Numbers -/

def readInt (t : List Char) : Option ℤ := (String.ofList t).toInt?

theorem readInt_toString (z : ℤ) : readInt (toString z).toList = some z := by
  rw [readInt, String.ofList_toList]
  exact Int.toInt?_repr z

/-- It ends neither a line nor an argument. -/
def IsPlain (c : Char) : Prop := c ≠ '\n' ∧ c ≠ ','

theorem isPlain_of_isDigit {c : Char} (h : c.isDigit = true) : IsPlain c := by
  constructor <;> (rintro rfl; exact absurd h (by decide))

theorem isPlain_toString (z : ℤ) : ∀ c ∈ (toString z).toList, IsPlain c := by
  have hnat : ∀ n : ℕ, ∀ c ∈ n.repr.toList, IsPlain c := fun n c hc => by
    rw [Nat.toList_repr] at hc
    exact isPlain_of_isDigit (Nat.isDigit_of_mem_toDigits (by decide) (by decide) hc)
  cases z with
  | ofNat n => exact hnat n
  | negSucc n =>
    intro c hc
    have hminus : (toString (Int.negSucc n)).toList = '-' :: (n + 1).repr.toList := by
      show ("-" ++ (n + 1).repr).toList = _
      rw [String.toList_append]
      rfl
    rw [hminus] at hc
    rcases List.mem_cons.mp hc with rfl | hc
    · exact ⟨by decide, by decide⟩
    · exact hnat (n + 1) c hc

/-! ### Applications -/

/-- What was written item by item is read item by item. -/
theorem mapM_map {α β : Type} {write : β → α} {read : α → Option β} : ∀ {l : List β},
    (∀ b ∈ l, read (write b) = some b) → (l.map write).mapM read = some l
  | [], _ => rfl
  | b :: l, h => by
    obtain ⟨hb, hl⟩ := List.forall_mem_cons.mp h
    rw [List.map_cons, List.mapM_cons, hb, mapM_map hl]
    rfl

section

variable {β : Type}

/-- A function applied to arguments. -/
def applied (function : String) (arguments : List String) : String :=
  function ++ "(" ++ ",".intercalate arguments ++ ")"

/-- The arguments of this function. -/
def readApplied (read : List Char → Option β) (function : String) (t : List Char) : Option (List β) :=
  let opening := function.toList ++ ['(']
  if t.take opening.length = opening ∧ t.getLast? = some ')' then
    ((t.drop opening.length).dropLast.splitOn ',').mapM read
  else none

theorem readApplied_applied {read : List Char → Option β} {text : β → String} {arguments : List β}
    (hread : ∀ b ∈ arguments, read (text b).toList = some b) (hplain : ∀ b ∈ arguments, ',' ∉ (text b).toList)
    (hne : arguments ≠ []) (function : String) :
    readApplied read function (applied function (arguments.map text)).toList = some arguments := by
  have hsplit : (applied function (arguments.map text)).toList =
      (function.toList ++ ['(']) ++ ([','].intercalate (arguments.map fun b => (text b).toList) ++ [')']) := by
    simp [applied, Function.comp_def]
  have hlast : ((function.toList ++ ['(']) ++
      ([','].intercalate (arguments.map fun b => (text b).toList) ++ [')'])).getLast? = some ')' := by
    rw [← List.append_assoc, List.getLast?_concat]
  rw [readApplied, hsplit, List.take_left, List.drop_left, if_pos ⟨rfl, hlast⟩, List.dropLast_concat,
    List.splitOn_intercalate _ (List.forall_mem_map.mpr hplain) (by simpa using hne), mapM_map hread]

theorem not_mem_applied {function : String} {arguments : List String} (hfunction : '\n' ∉ function.toList)
    (h : ∀ argument ∈ arguments, '\n' ∉ argument.toList) : '\n' ∉ (applied function arguments).toList := by
  have hjoined : ∀ l : List String, (∀ argument ∈ l, '\n' ∉ argument.toList) →
      '\n' ∉ [','].intercalate (l.map String.toList) := by
    intro l hl
    induction l with
    | nil => simp
    | cons a l ih =>
      obtain ⟨ha, hl⟩ := List.forall_mem_cons.mp hl
      cases l with
      | nil => simpa using ha
      | cons b l => simpa [List.intercalate_cons_cons, ha] using ih hl
  have harguments : '\n' ∉ (",".intercalate arguments).toList := by
    rw [String.toList_intercalate]
    exact hjoined arguments h
  exact not_mem_append (not_mem_append (not_mem_append hfunction (by decide)) harguments) (by decide)

end

/-! ### Lines -/

/-- A name and an argument. -/
abbrev Call := List Char × List Char

def line (c : Call) : List Char := '.' :: c.1 ++ '(' :: c.2 ++ [')']

def readLine : List Char → Option Call
  | '.' :: rest =>
    match rest.dropWhile (· ≠ '(') with
    | _ :: argument =>
      if argument.getLast? = some ')' then some (rest.takeWhile (· ≠ '('), argument.dropLast) else none
    | [] => none
  | _ => none

theorem readLine_line {c : Call} (h : '(' ∉ c.1) : readLine (line c) = some c := by
  have hline : line c = '.' :: (c.1 ++ '(' :: (c.2 ++ [')'])) := by simp [line]
  have hname : ∀ b ∈ c.1, decide (b ≠ '(') = true := fun b hb => decide_eq_true fun heq => h (heq ▸ hb)
  rw [hline, readLine, List.dropWhile_append_of_pos hname, List.dropWhile_cons_of_neg (by simp),
    List.takeWhile_append_of_pos hname, List.takeWhile_cons_of_neg (by simp)]
  simp

/-- The name ends where the first bracket is, and the line where it ends. -/
structure Fits (c : Call) : Prop where
  bracket : '(' ∉ c.1
  name : '\n' ∉ c.1
  argument : '\n' ∉ c.2

theorem mapM_readLine {calls : List Call} (h : ∀ c ∈ calls, Fits c) : (calls.map line).mapM readLine = some calls :=
  mapM_map fun c hc => readLine_line (h c hc).bracket

theorem Fits.not_mem_line {c : Call} (h : Fits c) : '\n' ∉ line c := by
  simp [line, h.name, h.argument]

section

variable {α β : Type}

/-- A call, from a table of the names with what reads their arguments. -/
def readWith (table : List (String × (List Char → Option β))) (c : Call) : Option β :=
  (lookup table c.1).bind fun read => read c.2

theorem readWith_entry {table : List (String × (List Char → Option β))} (hnodup : (table.map Prod.fst).Nodup) {i : ℕ}
    {name : String} {read : List Char → Option α} {f : α → β} (hi : table[i]? = some (name, fun t => (read t).map f))
    {argument : List Char} {a : α} (h : read argument = some a) :
    readWith table (name.toList, argument) = some (f a) := by
  rw [readWith, lookup_of_mem hnodup (List.mem_of_getElem? hi), Option.bind_some]
  exact congrArg (Option.map f) h

end

section

variable {σ ι : Type} {step : σ → Call → Option σ}

theorem foldlM_step {s s' s'' : σ} {c : Call} {calls : List Call} (h : step s c = some s')
    (hcalls : calls.foldlM step s' = some s'') : (c :: calls).foldlM step s = some s'' := by
  rw [List.foldlM_cons, h]
  exact hcalls

theorem foldlM_trans {s s' s'' : σ} {a b : List Call} (ha : a.foldlM step s = some s')
    (hb : b.foldlM step s' = some s'') : (a ++ b).foldlM step s = some s'' := by
  rw [List.foldlM_append, ha]
  exact hb

/-- Items that are read from several calls each, one after the other. -/
theorem foldlM_items {calls : ι → List Call} (state : List ι → σ) : ∀ {items : List ι},
    (∀ i ∈ items, ∀ done, (calls i).foldlM step (state done) = some (state (done ++ [i]))) →
      ∀ done, (items.flatMap calls).foldlM step (state done) = some (state (done ++ items))
  | [], _, done => by
    rw [List.append_nil]
    rfl
  | i :: items, h, done => by
    obtain ⟨hi, hitems⟩ := List.forall_mem_cons.mp h
    have hrest := foldlM_items state hitems (done ++ [i])
    rw [List.append_assoc] at hrest
    exact foldlM_trans (hi done) hrest

end

/-- Calls, each with the end of its line. -/
def lines (calls : List Call) : List Char := (calls.map line).flatMap (· ++ ['\n'])

theorem lines_append (a b : List Call) : lines (a ++ b) = lines a ++ lines b := by
  simp [lines]

theorem lines_cons (c : Call) (calls : List Call) : lines (c :: calls) = line c ++ '\n' :: lines calls := by
  simp [lines]

theorem toList_join_map {ι : Type} (text : ι → String) (calls : ι → List Call)
    (h : ∀ i, (text i).toList = lines (calls i)) (items : List ι) :
    (String.join (items.map text)).toList = lines (items.flatMap calls) := by
  induction items with
  | nil => rfl
  | cons i items ih =>
    rw [List.map_cons, String.join_cons, String.toList_append, h, ih, List.flatMap_cons, lines_append]

/-- Lines that end, and a last one. -/
theorem splitOn_lines {lines : List (List Char)} {last : List Char} (h : ∀ l ∈ lines, '\n' ∉ l) (hlast : '\n' ∉ last) :
    (lines.flatMap (· ++ ['\n']) ++ last).splitOn '\n' = lines ++ [last] := by
  have hjoin : ∀ ls : List (List Char), ls.flatMap (· ++ ['\n']) ++ last = ['\n'].intercalate (ls ++ [last]) := by
    intro ls
    induction ls with
    | nil => simp
    | cons l ls ih =>
      rw [List.flatMap_cons, List.append_assoc, ih]
      cases ls <;> simp [List.intercalate_cons_cons]
  rw [hjoin, List.splitOn_intercalate _ _ (by simp)]
  intro l hl
  rcases List.mem_append.mp hl with hl | hl
  · exact h l hl
  · rw [List.mem_singleton.mp hl]
    exact hlast

end CallLines
end PGCon

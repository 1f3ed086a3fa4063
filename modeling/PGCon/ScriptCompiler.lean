/-
# Compiling a script file

`ScriptCompiler.compile` reads the file, guesses the package of the class from the text
and has the text compiled under that name. `findPackageName` does not parse: it takes
the first place where the letters `package` stand, anywhere, and what follows up to the
next semicolon. `Reads` is what it answers (`findPackageName_eq_some_iff`).

The grammar is `Declares`: white space and comments, the keyword, white space, a
qualified name, a semicolon. The answer is the name declared exactly if no comment before
the declaration has the letters, or the first one that has them happens to read the same
name (`reads_declared_iff`); and with no declaration it is `null` exactly if nothing reads
as one, in a comment, a string or an identifier.
-/
import PGCon.Text
import PGCon.ScriptRegistry

namespace PGCon
namespace ScriptCompiler

open Text

def PACKAGE : JavaString := lit "package"
def SEMICOLON : JavaChar := unit ';'
def DOT : JavaChar := unit '.'

/-- `findPackageName`: the exception of `substring` is caught. -/
def findPackageName (code : JavaString) : Option JavaString :=
  match indexOf PACKAGE code with
  | none => none
  | some index =>
    match indexFrom [SEMICOLON] code index with
    | none => none
    | some endIndex => (substring code (index + 8) endIndex).map trim

/-- `!Strings.isNullOrEmpty(packageName)` and the class name made of it. -/
def qualify (packageName : Option JavaString) (className : JavaString) : JavaString :=
  match packageName with
  | none => className
  | some name => if name = [] then className else name ++ DOT :: className

/-- An exception, with the message the program gives it. -/
structure Thrown where
  exception : JavaException
  message : Option JavaString

/-- `catch (Exception e) { throw new LoadScriptException(message, e); }`. -/
def Thrown.wrap (message : JavaString) (e : Thrown) : Thrown :=
  if e.exception = .javaError then e else ⟨.loadScript, some message⟩

/-- A class, as far as `ScriptLoader` asks it: whether `BasicScriptEngine` is assignable
from it, and what its constructor comes to. -/
structure ScriptClass (C : Type) where
  isScriptEngine : Bool
  newInstance : Except Thrown (ScriptRegistry.ScriptInfo C)

/-- A script file, and what the file system and the compiler answer when it is loaded. -/
structure ScriptFile (C : Type) where
  getName : JavaString
  getAbsolutePath : JavaString
  readFileToString : Except Thrown JavaString
  loadFromJava : JavaString → JavaString → Except Thrown (ScriptClass C)

variable {C : Type}

/-- The name of the file without its extension. -/
def baseName (fileName : JavaString) : Except Thrown JavaString :=
  match (lastIndexOf DOT fileName).bind (substring fileName 0) with
  | some name => .ok name
  | none => .error ⟨.stringIndexOutOfBounds, none⟩

/-- What the two `catch` blocks around `loadFromJava` throw. -/
def compileFailure (className path : JavaString) (e : Thrown) : Thrown :=
  if e.exception = .classNotFound then
    ⟨.loadScript, some (lit "can't found class " ++ className ++
      lit "in script file , please make sure the class name is the same as the script file name")⟩
  else e.wrap (lit "compile script file " ++ path ++ lit " error")

/-- `compile(ClassLoader, File)`. -/
def compile (file : ScriptFile C) : Except Thrown (ScriptClass C) := do
  let code ← file.readFileToString.mapError (Thrown.wrap (lit "load script file error"))
  let packageName := findPackageName code
  let name ← baseName file.getName
  let className := qualify packageName name
  (file.loadFromJava className code).mapError (compileFailure className file.getAbsolutePath)

/-! ### What the text reads as -/

/-- The letters stand in the text for the first time, a unit follows, and from there to
the next semicolon the text reads `name`. -/
def Reads (code name : JavaString) : Prop :=
  ∃ before c between after, code = before ++ (PACKAGE ++ (c :: between ++ SEMICOLON :: after)) ∧
    ¬ PACKAGE <:+: before ∧ SEMICOLON ∉ c :: between ∧ trim between = name

theorem semicolon_not_mem_package : SEMICOLON ∉ PACKAGE := by decide

theorem indexOf_package {before after : JavaString} (h : ¬ PACKAGE <:+: before) :
    indexOf PACKAGE (before ++ (PACKAGE ++ after)) = some before.length := by
  have hp : unit 'p' ∉ lit "ackage" := by decide
  exact indexOf_append hp h

/-- The answer, once the letters and the semicolon are found. -/
theorem findPackageName_eq {before between : JavaString} (after : JavaString) (h : ¬ PACKAGE <:+: before)
    (hbetween : SEMICOLON ∉ between) :
    findPackageName (before ++ (PACKAGE ++ (between ++ SEMICOLON :: after))) =
      match between with
      | [] => none
      | _ :: between => some (trim between) := by
  have hmem : SEMICOLON ∉ PACKAGE ++ between := by
    rw [List.mem_append, not_or]
    exact ⟨semicolon_not_mem_package, hbetween⟩
  have hend : indexFrom [SEMICOLON] (before ++ (PACKAGE ++ (between ++ SEMICOLON :: after))) before.length =
      some (before.length + (PACKAGE ++ between).length) := by
    rw [indexFrom, List.drop_left, ← List.append_assoc, indexOf_unit hmem]
    rfl
  simp only [findPackageName, indexOf_package h, hend]
  have hlen : (PACKAGE ++ between).length = 7 + between.length := by rw [List.length_append]; rfl
  rcases between with - | ⟨c, between⟩
  · have hout : ¬ before.length + 8 ≤ before.length + (PACKAGE ++ []).length := by rw [hlen, List.length_nil]; omega
    rw [substring, if_neg fun hin => hout hin.1]
    rfl
  · have hcut := substring_append (before ++ (PACKAGE ++ [c])) between (SEMICOLON :: after)
    have hstart : (before ++ (PACKAGE ++ [c])).length = before.length + 8 := by rw [List.length_append]; rfl
    have hstop : before.length + (PACKAGE ++ c :: between).length = before.length + 8 + between.length := by
      rw [hlen, List.length_cons]
      omega
    rw [hstart] at hcut
    rw [hstop]
    simp only [List.append_assoc, List.cons_append, List.nil_append] at hcut ⊢
    rw [hcut]
    rfl

/-- Where there is no semicolon any more, the answer is `null`. -/
theorem findPackageName_eq_none {before after : JavaString} (h : ¬ PACKAGE <:+: before) (hafter : SEMICOLON ∉ after) :
    findPackageName (before ++ (PACKAGE ++ after)) = none := by
  have hmem : SEMICOLON ∉ PACKAGE ++ after := by
    rw [List.mem_append, not_or]
    exact ⟨semicolon_not_mem_package, hafter⟩
  simp only [findPackageName, indexOf_package h, indexFrom, List.drop_left, indexOf_unit_eq_none hmem, Option.map_none]

/-- A text that has the letters, cut where they first stand. -/
theorem exists_first {code : JavaString} (h : PACKAGE <:+: code) :
    ∃ before after, code = before ++ (PACKAGE ++ after) ∧ ¬ PACKAGE <:+: before := by
  cases hi : indexOf PACKAGE code with
  | none => exact absurd h ((indexOf_eq_none_iff PACKAGE code).mp hi)
  | some n =>
    obtain ⟨before, after, hcode, -, hbefore⟩ := of_indexOf_eq_some (by decide) hi
    exact ⟨before, after, hcode, hbefore⟩

theorem findPackageName_eq_some_iff (code name : JavaString) : findPackageName code = some name ↔ Reads code name := by
  constructor
  · intro h
    have hin : PACKAGE <:+: code := by
      by_contra hout
      rw [findPackageName, (indexOf_eq_none_iff PACKAGE code).mpr hout] at h
      cases h
    obtain ⟨before, after, rfl, hbefore⟩ := exists_first hin
    by_cases hmem : SEMICOLON ∈ after
    · obtain ⟨between, rest, rfl, hbetween⟩ := List.eq_append_cons_of_mem hmem
      rw [findPackageName_eq _ hbefore hbetween] at h
      rcases between with - | ⟨c, between⟩
      · cases h
      · exact ⟨before, c, between, rest, rfl, hbefore, hbetween, Option.some.inj h⟩
    · rw [findPackageName_eq_none hbefore hmem] at h
      cases h
  · rintro ⟨before, c, between, after, rfl, hbefore, hbetween, rfl⟩
    exact findPackageName_eq _ hbefore hbetween

/-- With the letters and the next semicolon in the text already, more text changes
nothing. -/
theorem findPackageName_append {text : JavaString} (more : JavaString) {before after : JavaString}
    (htext : text = before ++ (PACKAGE ++ after)) (hbefore : ¬ PACKAGE <:+: before) (hmem : SEMICOLON ∈ after) :
    findPackageName (text ++ more) = findPackageName text := by
  obtain ⟨between, rest, rfl, hbetween⟩ := List.eq_append_cons_of_mem hmem
  subst htext
  have hmore : before ++ (PACKAGE ++ (between ++ SEMICOLON :: rest)) ++ more =
      before ++ (PACKAGE ++ (between ++ SEMICOLON :: (rest ++ more))) := by simp
  rw [hmore, findPackageName_eq _ hbefore hbetween, findPackageName_eq _ hbefore hbetween]

/-! ### The grammar -/

/-- Line terminators and white space. -/
def TERMINATORS : JavaString := lit "\n\r"
def WHITE : JavaString := lit " \t\x0c\n\r"

/-- White space and comments. -/
inductive Trivia : JavaString → Prop
  | nil : Trivia []
  | white {c : JavaChar} {rest : JavaString} (hc : c ∈ WHITE) (hrest : Trivia rest) : Trivia (c :: rest)
  | line {body rest : JavaString} {c : JavaChar} (hbody : ∀ d ∈ body, d ∉ TERMINATORS) (hc : c ∈ TERMINATORS)
      (hrest : Trivia rest) : Trivia (lit "//" ++ (body ++ c :: rest))
  | block {body rest : JavaString} (hbody : ¬ lit "*/" <:+: body) (hrest : Trivia rest) :
      Trivia (lit "/*" ++ (body ++ (lit "*/" ++ rest)))

/-- The identifiers of the language. They are not empty, begin with a letter, and have no
white space and no semicolon in them; that is all that is used of them. -/
structure Identifiers where
  IsIdentifier : JavaString → Prop
  first : ∀ {name : JavaString}, IsIdentifier name → ∃ c rest, name = c :: rest ∧ ¬ c ≤ 0x20
  inside : ∀ {name : JavaString}, IsIdentifier name → ∀ c ∈ name, c ∉ WHITE ∧ c ≠ SEMICOLON

variable (ids : Identifiers)

inductive QualifiedName : JavaString → Prop
  | simple {name : JavaString} (h : ids.IsIdentifier name) : QualifiedName name
  | dot {name rest : JavaString} (h : ids.IsIdentifier name) (hrest : QualifiedName rest) :
      QualifiedName (name ++ DOT :: rest)

/-- After `trivia` the text declares the package `name`. -/
def Declares (code trivia name : JavaString) : Prop :=
  ∃ gap gap' rest, code = trivia ++ (PACKAGE ++ (gap ++ (name ++ (gap' ++ SEMICOLON :: rest)))) ∧
    Trivia trivia ∧ (gap ≠ [] ∧ ∀ c ∈ gap, c ∈ WHITE) ∧ QualifiedName ids name ∧ ∀ c ∈ gap', c ∈ WHITE

variable {ids}

theorem QualifiedName.first {name : JavaString} (h : QualifiedName ids name) : ∃ c rest, name = c :: rest ∧ ¬ c ≤ 0x20 := by
  cases h with
  | simple h => exact ids.first h
  | dot h _ =>
    obtain ⟨c, rest, rfl, hc⟩ := ids.first h
    exact ⟨c, _, rfl, hc⟩

theorem QualifiedName.inside {name : JavaString} (h : QualifiedName ids name) : ∀ c ∈ name, c ∉ WHITE ∧ c ≠ SEMICOLON := by
  induction h with
  | simple h => exact ids.inside h
  | dot h _ ih =>
    intro c hc
    rcases List.mem_append.mp hc with hc | hc
    · exact ids.inside h c hc
    · rcases List.mem_cons.mp hc with rfl | hc
      · decide
      · exact ih c hc

theorem terminators_subset_white : TERMINATORS ⊆ WHITE := by decide

/-- White space and comments end in white space or a slash. -/
theorem Trivia.last {trivia : JavaString} (h : Trivia trivia) {c : JavaChar} (hc : trivia.getLast? = some c) :
    c ∈ WHITE ∨ c = unit '/' := by
  induction h with
  | nil => cases hc
  | white hd _ ih =>
    rcases last_or [] hc with rfl | hc
    · exact .inl hd
    · exact ih hc
  | @line body rest d _ hd _ ih =>
    rw [← List.append_assoc] at hc
    rcases last_or _ hc with rfl | hc
    · exact .inl (terminators_subset_white hd)
    · exact ih hc
  | @block body rest _ _ ih =>
    have hcut : lit "/*" ++ (body ++ (lit "*/" ++ rest)) = (lit "/*" ++ body ++ [unit '*']) ++ unit '/' :: rest := by
      have hclose : lit "*/" = [unit '*', unit '/'] := rfl
      simp [hclose]
    rw [hcut] at hc
    rcases last_or _ hc with rfl | hc
    · exact .inr rfl
    · exact ih hc

theorem not_trivia_package (before : JavaString) : ¬ Trivia (before ++ PACKAGE) := by
  intro h
  have hlast : (before ++ PACKAGE).getLast? = some (unit 'e') := by
    have hcut : before ++ PACKAGE = (before ++ lit "packag") ++ [unit 'e'] := by
      rw [List.append_assoc]
      rfl
    rw [hcut, List.getLast?_concat]
  rcases h.last hlast with h | h
  · exact absurd h (by decide)
  · exact absurd h (by decide)

theorem white_le {c : JavaChar} (h : c ∈ WHITE) : c ≤ 0x20 := by
  have hall : WHITE.all fun c => decide (c ≤ 0x20) := by decide
  exact List.all_iff_forall_prop.mp hall c h

theorem ne_semicolon_of_white {c : JavaChar} (h : c ∈ WHITE) : c ≠ SEMICOLON := by
  rintro rfl
  exact absurd h (by decide)

/-! ### What is read against what is declared -/

section

variable {code trivia name : JavaString} (h : Declares ids code trivia name)
include h

/-- With no earlier mention the declaration is what is read. -/
theorem findPackageName_of_not_mentioned (hclear : ¬ PACKAGE <:+: trivia) :
    findPackageName code = some (trim name) := by
  obtain ⟨gap, gap', rest, rfl, -, ⟨hne, hgap⟩, hname, hgap'⟩ := h
  obtain ⟨c, gap, rfl⟩ := List.exists_cons_of_ne_nil hne
  have hmem : SEMICOLON ∉ c :: gap ++ (name ++ gap') := by
    simp only [List.mem_append, not_or]
    exact ⟨fun hs => ne_semicolon_of_white (hgap _ hs) rfl, fun hs => (hname.inside _ hs).2 rfl,
      fun hs => ne_semicolon_of_white (hgap' _ hs) rfl⟩
  have htrim : trim (gap ++ (name ++ gap')) = trim name :=
    strip_append (fun d hd => decide_eq_true (white_le (hgap d (List.mem_cons_of_mem c hd))))
      fun d hd => decide_eq_true (white_le (hgap' d hd))
  have hread := findPackageName_eq rest hclear hmem
  simp only [List.append_assoc, List.cons_append] at hread ⊢
  rw [hread, htrim]

/-- A mention with no semicolon up to the declaration swallows the keyword and the white
space after it, and no name has white space in it. -/
theorem findPackageName_of_swallowed {before after : JavaString} (htrivia : trivia = before ++ (PACKAGE ++ after))
    (hbefore : ¬ PACKAGE <:+: before) (hafter : SEMICOLON ∉ after) : findPackageName code ≠ some name := by
  obtain ⟨gap, gap', rest, rfl, htriv, ⟨hne, hgap⟩, hname, hgap'⟩ := h
  subst htrivia
  rcases after with - | ⟨d, after⟩
  · rw [List.append_nil] at htriv
    exact absurd htriv (not_trivia_package before)
  obtain ⟨first, last, rfl, hfirst⟩ := hname.first
  have hmem : SEMICOLON ∉ d :: after ++ (PACKAGE ++ (gap ++ (first :: last ++ gap'))) := by
    simp only [List.mem_append, not_or] at hafter ⊢
    exact ⟨hafter, semicolon_not_mem_package, fun hs => ne_semicolon_of_white (hgap _ hs) rfl,
      fun hs => (hname.inside _ hs).2 rfl, fun hs => ne_semicolon_of_white (hgap' _ hs) rfl⟩
  have hread := findPackageName_eq rest hbefore hmem
  simp only [List.append_assoc, List.cons_append] at hread ⊢
  rw [hread]
  intro heq
  -- the white space after the keyword stands between two letters, so it is not trimmed
  obtain ⟨w, gap, rfl⟩ := List.exists_cons_of_ne_nil hne
  have hin : w ∈ trim (after ++ (PACKAGE ++ (w :: gap ++ (first :: (last ++ gap'))))) := by
    have hw : w ∈ lit "ackage" ++ w :: gap := by simp
    have hp : ¬ decide (unit 'p' ≤ 0x20) = true := by decide
    exact mem_strip after (last ++ gap') hp (by simpa using hfirst) hw
  have hname' : trim (after ++ (PACKAGE ++ (w :: gap ++ (first :: (last ++ gap'))))) = first :: last :=
    Option.some.inj heq
  rw [hname'] at hin
  exact (hname.inside w hin).1 (hgap w List.mem_cons_self)

/-- The name declared is the one found exactly if the comments before it do not have the
letters (and it does not end in something that is trimmed), or if they read as it. -/
theorem reads_declared_iff : findPackageName code = some name ↔
    (¬ PACKAGE <:+: trivia ∧ trim name = name) ∨ Reads trivia name := by
  by_cases hin : PACKAGE <:+: trivia
  · obtain ⟨before, after, htrivia, hbefore⟩ := exists_first hin
    have hmentioned : ¬ (¬ PACKAGE <:+: trivia ∧ trim name = name) := fun hc => hc.1 hin
    rw [← findPackageName_eq_some_iff, or_iff_right hmentioned]
    by_cases hmem : SEMICOLON ∈ after
    · obtain ⟨gap, gap', rest, rfl, -⟩ := h
      rw [findPackageName_append _ htrivia hbefore hmem]
    · have hnone : findPackageName trivia = none := by
        rw [htrivia]
        exact findPackageName_eq_none hbefore hmem
      rw [hnone]
      exact iff_of_false (findPackageName_of_swallowed h htrivia hbefore hmem) nofun
  · have hunread : ¬ Reads trivia name := by
      rintro ⟨before, c, between, after, rfl, -⟩
      exact hin ⟨before, _, List.append_assoc ..⟩
    rw [findPackageName_of_not_mentioned h hin, Option.some.injEq, or_iff_left hunread]
    exact ⟨fun htrim => ⟨hin, htrim⟩, And.right⟩

end

variable (ids)

/-- The answer is the name declared, or `null` if none is. -/
def Follows (code : JavaString) : Prop :=
  (∀ trivia name, Declares ids code trivia name → findPackageName code = some name) ∧
    ((∀ trivia name, ¬ Declares ids code trivia name) → findPackageName code = none)

/-- No comment before the declaration mentions the word, unless it happens to read as the
declaration does; and without a declaration nothing reads as one. -/
def Unmistakable (code : JavaString) : Prop :=
  (∀ trivia name, Declares ids code trivia name → (¬ PACKAGE <:+: trivia ∧ trim name = name) ∨ Reads trivia name) ∧
    ((∀ trivia name, ¬ Declares ids code trivia name) → ∀ name, ¬ Reads code name)

/-- The package of the class name `compile` derives is the one declared, for a file of
this base name. -/
def RightName (code className : JavaString) : Prop :=
  (∀ trivia name, Declares ids code trivia name →
      qualify (findPackageName code) className = name ++ DOT :: className) ∧
    ((∀ trivia name, ¬ Declares ids code trivia name) → qualify (findPackageName code) className = className)

variable {ids}

theorem Follows.rightName {code : JavaString} (h : Follows ids code) (className : JavaString) :
    RightName ids code className := by
  refine ⟨fun trivia name hdecl => ?_, fun habsent => ?_⟩
  · obtain ⟨-, -, -, -, -, -, hname, -⟩ := id hdecl
    obtain ⟨c, rest, rfl, -⟩ := hname.first
    rw [h.1 trivia _ hdecl, qualify, if_neg (List.cons_ne_nil c rest)]
  · rw [h.2 habsent]
    rfl

/-- For every text: package detection follows the grammar if and only if the text is
unmistakable, and then the class name is right. -/
theorem follows_iff (ids : Identifiers) (code : JavaString) :
    (Follows ids code ↔ Unmistakable ids code) ∧ (Follows ids code → ∀ className, RightName ids code className) := by
  refine ⟨and_congr ?_ ?_, fun h => h.rightName⟩
  · refine forall_congr' fun trivia => forall_congr' fun name => forall_congr' fun hdecl => ?_
    exact reads_declared_iff hdecl
  · refine forall_congr' fun _ => ?_
    rw [Option.eq_none_iff_forall_ne_some]
    refine forall_congr' fun name => not_congr ?_
    exact findPackageName_eq_some_iff code name

/-! ### A comment -/

/-- Words of letters from `a` on. -/
def words : Identifiers where
  IsIdentifier name := name ≠ [] ∧ ∀ c ∈ name, unit 'a' ≤ c
  first := by
    rintro name ⟨hne, hall⟩
    obtain ⟨c, rest, rfl⟩ := List.exists_cons_of_ne_nil hne
    exact ⟨c, rest, rfl, fun hle => absurd (BitVec.le_trans (hall c List.mem_cons_self) hle) (by decide)⟩
  inside := by
    rintro name ⟨-, hall⟩ c hc
    refine ⟨fun hw => absurd (BitVec.le_trans (hall c hc) (white_le hw)) (by decide), ?_⟩
    rintro rfl
    exact absurd (hall _ hc) (by decide)

/-- A comment that names another package. -/
def commented : JavaString := lit "//package b;\npackage a;"

/-- The package of the comment is taken. -/
theorem comment_misread : Declares words commented (lit "//package b;\n") (lit "a") ∧
    findPackageName commented = some (lit "b") ∧ ¬ Follows words commented := by
  have hbody : ∀ c ∈ lit "package b;", c ∉ TERMINATORS := List.all_iff_forall_prop.mp (by decide)
  have htrivia : Trivia (lit "//" ++ (lit "package b;" ++ unit '\n' :: [])) := .line hbody (by decide) .nil
  have hgap : ∀ c ∈ lit " ", c ∈ WHITE := List.all_iff_forall_prop.mp (by decide)
  have hname : words.IsIdentifier (lit "a") := ⟨by decide, List.all_iff_forall_prop.mp (by decide)⟩
  have hdecl : Declares words commented (lit "//package b;\n") (lit "a") :=
    ⟨lit " ", [], [], rfl, htrivia, ⟨by decide, hgap⟩, .simple hname, nofun⟩
  have hread : findPackageName commented = some (lit "b") := by decide
  refine ⟨hdecl, hread, fun h => ?_⟩
  rw [h.1 _ _ hdecl] at hread
  exact absurd (Option.some.inj hread) (by decide)

end ScriptCompiler
end PGCon

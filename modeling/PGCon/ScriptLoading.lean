/-
# Loading the scripts of a directory

`ScriptService.loadScripts` clears the registry and loads the script files one after
the other. A file can fail in four ways: it cannot be read, it does not compile, its
class is no script engine, its constructor throws. `ScriptLoader.loadScript` throws a
`LoadScriptException` for each (`loadScript_throws`), and nobody catches it: `parseScript`
hands on what it gets, and the filter for `null` behind it never finds one.

So the first file that fails ends the load. The registry then holds the scripts before
it and none after it (`holds_before_failure`), and the load returns, with all scripts in
the registry, exactly if every file loads (`others_survive_iff`).
-/
import PGCon.ScriptCompiler

namespace PGCon
namespace ScriptLoading

open Effect Machine Text ScriptRegistry ScriptCompiler

variable {C : Type}

/-- `ScriptLoader.loadScript`, but for the class loader it makes. -/
def loadScript (file : ScriptFile C) : Except Thrown (ScriptInfo C) := do
  let scriptClass ← compile file
  if !scriptClass.isScriptEngine then
    .error ⟨.loadScript, some (lit "script didn't implement any ScriptEngine")⟩
  else
    scriptClass.newInstance.mapError (Thrown.wrap
      (lit "can't construct script instance , please make sure script has a public no-arg constructor"))

/-- The files found, each with what loading it comes to. -/
def entries (files : List (ScriptFile C)) : List (ScriptFile C × Except JavaException (ScriptInfo C)) :=
  files.map fun file => (file, (loadScript file).mapError Thrown.exception)

/-- The file loads. -/
def Loads (file : ScriptFile C) : Prop := ∃ info, loadScript file = .ok info

/-- The scripts of the files that load. -/
def loadable (files : List (ScriptFile C)) : List (ScriptFile C × ScriptInfo C) :=
  files.filterMap fun file => (loadScript file).toOption.map fun info => (file, info)

section Service

variable (className : ScriptFile C → String)

/-- `ScriptService.loadScripts`, over the files found. -/
def loadScripts (files : List (ScriptFile C)) : Java (Registry (ScriptFile C) C) Unit :=
  ScriptRegistry.loadScripts className (entries files)

/-- The scripts have different class names and different descriptions. -/
def Distinct (scripts : List (ScriptFile C × ScriptInfo C)) : Prop :=
  (scripts.map fun p => className p.1).Nodup ∧ (scripts.map fun p => p.2.description).Nodup

/-- The registry holds exactly these scripts, each found by its name, its description and
its class. -/
structure Holds (scripts : List (ScriptFile C × ScriptInfo C)) (s : Registry (ScriptFile C) C) : Prop where
  found : ∀ p ∈ scripts, ∃ c loader, s.caches[c]? = some (cacheOf className p.1 p.2 loader) ∧
    s.manager.getScriptByName (className p.1) = some c ∧
    s.manager.getScriptByDescription p.2.description = some c ∧
    s.manager.getScriptByClass ⟨loader, className p.1⟩ = some c
  only : ∀ c, s.manager.Registered c → ∃ p ∈ scripts, ∃ loader, s.caches[c]? = some (cacheOf className p.1 p.2 loader)

/-! ### One file -/

/-- What a file that loads has gone through. -/
theorem loads_iff (file : ScriptFile C) : Loads file ↔ ∃ code name scriptClass info,
    file.readFileToString = .ok code ∧ baseName file.getName = .ok name ∧
    file.loadFromJava (qualify (findPackageName code) name) code = .ok scriptClass ∧
    scriptClass.isScriptEngine = true ∧ scriptClass.newInstance = .ok info := by
  constructor
  · rintro ⟨info, h⟩
    obtain ⟨scriptClass, hcompile, hnew⟩ := bind_eq_ok.mp h
    obtain ⟨code, hread, hname⟩ := bind_eq_ok.mp hcompile
    obtain ⟨name, hname, hload⟩ := bind_eq_ok.mp hname
    cases hengine : scriptClass.isScriptEngine with
    | false =>
      rw [hengine] at hnew
      cases hnew
    | true =>
      rw [hengine] at hnew
      exact ⟨code, name, scriptClass, info, mapError_eq_ok.mp hread, hname, mapError_eq_ok.mp hload, hengine,
        mapError_eq_ok.mp hnew⟩
  · rintro ⟨code, name, scriptClass, info, hread, hname, hload, hengine, hnew⟩
    have hcompile : compile file = .ok scriptClass :=
      bind_eq_ok.mpr ⟨code, mapError_eq_ok.mpr hread, bind_eq_ok.mpr ⟨name, hname, mapError_eq_ok.mpr hload⟩⟩
    refine ⟨info, bind_eq_ok.mpr ⟨scriptClass, hcompile, ?_⟩⟩
    rw [hengine]
    exact mapError_eq_ok.mpr hnew

/-- What is rethrown is a `LoadScriptException` or an `Error`. -/
theorem wrap_throws (message : JavaString) (e : Thrown) :
    (e.wrap message).exception = .loadScript ∨ (e.wrap message).exception = .javaError := by
  unfold Thrown.wrap
  split
  · rename_i he
    exact .inr he
  · exact .inl rfl

theorem compileFailure_throws (className path : JavaString) (e : Thrown) :
    (compileFailure className path e).exception = .loadScript ∨
      (compileFailure className path e).exception = .javaError := by
  unfold compileFailure
  split
  · exact .inl rfl
  · exact wrap_throws _ e

/-- A file whose name has a dot fails with a `LoadScriptException`, if not with an `Error`. -/
theorem loadScript_throws {file : ScriptFile C} {name : JavaString} (hname : baseName file.getName = .ok name)
    {e : Thrown} (h : loadScript file = .error e) : e.exception = .loadScript ∨ e.exception = .javaError := by
  rcases bind_eq_error.mp h with hcompile | ⟨scriptClass, -, h⟩
  · rcases bind_eq_error.mp hcompile with hread | ⟨code, -, hcompile⟩
    · obtain ⟨e', -, rfl⟩ := mapError_eq_error.mp hread
      exact wrap_throws _ e'
    · rcases bind_eq_error.mp hcompile with hfail | ⟨name', -, hload⟩
      · rw [hname] at hfail
        cases hfail
      · obtain ⟨e', -, rfl⟩ := mapError_eq_error.mp hload
        exact compileFailure_throws _ _ e'
  · cases hengine : scriptClass.isScriptEngine with
    | false =>
      rw [hengine] at h
      cases h
      exact .inl rfl
    | true =>
      rw [hengine] at h
      obtain ⟨e', -, rfl⟩ := mapError_eq_error.mp h
      exact wrap_throws _ e'

/-! ### The loop -/

/-- One turn of the loop. -/
def loadOne (f : ScriptFile C × Except JavaException (ScriptInfo C)) : Java (Registry (ScriptFile C) C) Unit := do
  let c ← parseScript className f.1 f.2
  putScript c

/-- Entries of scripts that load. -/
def ready (scripts : List (ScriptFile C × ScriptInfo C)) : List (ScriptFile C × Except JavaException (ScriptInfo C)) :=
  scripts.map fun p => (p.1, .ok p.2)

/-- The registry with these scripts loaded, one after the other. -/
def loadAll (scripts : List (ScriptFile C × ScriptInfo C)) (s : Registry (ScriptFile C) C) :
    Registry (ScriptFile C) C :=
  scripts.foldl (fun s p => s.load className p.1 p.2) s

variable {className}

omit className in
theorem entries_of_loads {files : List (ScriptFile C)} (h : ∀ file ∈ files, Loads file) :
    entries files = ready (loadable files) := by
  induction files with
  | nil => rfl
  | cons file files ih =>
    obtain ⟨info, hinfo⟩ := h file List.mem_cons_self
    have hrest := ih fun f hf => h f (List.mem_cons_of_mem _ hf)
    simp only [entries, loadable, ready, List.map_cons, List.filterMap_cons, hinfo] at hrest ⊢
    rw [hrest]
    rfl

variable (className) in
/-- Scripts that load are loaded, and the loop goes on. -/
theorem forM_ready (scripts : List (ScriptFile C × ScriptInfo C))
    (rest : List (ScriptFile C × Except JavaException (ScriptInfo C))) (s : Registry (ScriptFile C) C) :
    (ready scripts ++ rest).forM (loadOne className) s = rest.forM (loadOne className) (loadAll className scripts s) := by
  induction scripts generalizing s with
  | nil => rfl
  | cons p scripts ih => exact (bind_of_ok (parse_put_run p.1 p.2 s)).trans (ih _)

/-- From a coherent registry scripts of different names and descriptions are loaded into
caches of their own, which are registered with those that were. -/
theorem loadAll_spec (scripts : List (ScriptFile C × ScriptInfo C)) {s : Registry (ScriptFile C) C} (h : Coherent s)
    (hw : WellFormed className s) (hfree : Free className (ready scripts) s)
    (hdistinct : Distinct className scripts) :
    Coherent (loadAll className scripts s) ∧
      (∃ new, (loadAll className scripts s).caches = s.caches ++ new ∧
        List.Forall₂ (fun p cache => ∃ loader, cache = cacheOf className p.1 p.2 loader) scripts new) ∧
      ∀ c, (loadAll className scripts s).manager.Registered c ↔
        s.manager.Registered c ∨ s.caches.length ≤ c ∧ c < (loadAll className scripts s).caches.length := by
  induction scripts generalizing s with
  | nil =>
    refine ⟨h, ⟨[], (List.append_nil _).symm, .nil⟩, fun c => ?_⟩
    have hnone : ¬ (s.caches.length ≤ c ∧ c < s.caches.length) := by omega
    exact (or_iff_left hnone).symm
  | cons p scripts ih =>
    obtain ⟨hnames, hdescriptions⟩ := hdistinct
    rw [List.map_cons, List.nodup_cons] at hnames hdescriptions
    have hname : className p.1 ∉ names className (ready scripts) := by
      simpa [names, ready] using hnames.1
    have hdescription : p.2.description ∉ descriptions (ready scripts) := by
      simpa [descriptions, ready, List.filterMap_map, Function.comp_def, Except.toOption] using hdescriptions.1
    obtain ⟨hcoh, hw', hfree'⟩ := parse_put h hw hfree hname hdescription
    obtain ⟨hcoh', ⟨new, hnew, hcaches⟩, hreg⟩ := ih hcoh hw' hfree' ⟨hnames.2, hdescriptions.2⟩
    have hone : (s.load className p.1 p.2).caches = s.caches ++ [cacheOf className p.1 p.2 s.loaders] := rfl
    refine ⟨hcoh', ⟨cacheOf className p.1 p.2 s.loaders :: new, ?_, .cons ⟨s.loaders, rfl⟩ hcaches⟩, fun c => ?_⟩
    · refine hnew.trans ?_
      rw [hone, List.append_assoc, List.singleton_append]
    · have hlen : (s.load className p.1 p.2).caches.length = s.caches.length + 1 := by
        rw [hone, List.length_append]
        rfl
      have hle : s.caches.length + 1 ≤ (loadAll className (p :: scripts) s).caches.length := by
        have := congrArg List.length hnew
        rw [List.length_append, hlen] at this
        exact this ▸ Nat.le_add_right _ _
      refine (hreg c).trans ?_
      rw [registered_load h hw, hlen, or_assoc]
      refine or_congr_right ?_
      change c = s.caches.length ∨ s.caches.length + 1 ≤ c ∧ c < (loadAll className (p :: scripts) s).caches.length ↔ _
      omega

/-- Loaded into an empty registry they are all it holds. -/
theorem holds_loadAll (scripts : List (ScriptFile C × ScriptInfo C)) {s : Registry (ScriptFile C) C}
    (hw : WellFormed className s) (hdistinct : Distinct className scripts) :
    Holds className scripts (loadAll className scripts { s with manager := .empty }) := by
  have hfree : Free className (ready scripts) { s with manager := .empty } :=
    fun c _ hreg => absurd hreg (ScriptManager.not_registered_empty c)
  obtain ⟨hcoh, ⟨new, hnew, hcaches⟩, hreg⟩ :=
    loadAll_spec scripts (coherent_empty s.caches s.loaders) hw.clear hfree hdistinct
  generalize loadAll className scripts { s with manager := .empty } = t at hcoh hnew hreg
  have hlen : t.caches.length = s.caches.length + new.length := by
    rw [hnew, List.length_append]
  -- the cache of the script in place `i`
  have hcache : ∀ i < new.length, t.caches[s.caches.length + i]? = new[i]? := by
    intro i _
    rw [hnew, List.getElem?_append_right (Nat.le_add_right _ _), Nat.add_sub_cancel_left]
  constructor
  · intro p hp
    obtain ⟨i, hi, rfl⟩ := List.getElem_of_mem hp
    have hi' : i < new.length := hcaches.length_eq ▸ hi
    obtain ⟨loader, hloader⟩ := hcaches.get hi hi'
    have hc := hcache i hi'
    rw [List.getElem?_eq_getElem hi'] at hc
    obtain ⟨cache, hfound, hbyName, hbyClass, hbyDescription⟩ := hcoh _ ((hreg (s.caches.length + i)).mpr (.inr (by
      change s.caches.length ≤ s.caches.length + i ∧ _
      omega)))
    rw [hc] at hfound
    cases hfound
    rw [List.get_eq_getElem] at hloader
    rw [show new[i] = _ from hloader] at hc hbyName hbyClass hbyDescription
    exact ⟨_, loader, hc, hbyName, hbyDescription, hbyClass⟩
  · intro c hc
    rcases (hreg c).mp hc with hc | ⟨hle, hlt⟩
    · exact absurd hc (ScriptManager.not_registered_empty c)
    · obtain ⟨i, rfl⟩ := Nat.exists_eq_add_of_le hle
      have hi : i < new.length := by
        rw [hlen] at hlt
        change s.caches.length + i < _ at hlt
        omega
      have hi' : i < scripts.length := hcaches.length_eq ▸ hi
      obtain ⟨loader, hloader⟩ := hcaches.get hi' hi
      refine ⟨scripts[i], List.getElem_mem hi', loader, ?_⟩
      rw [List.get_eq_getElem] at hloader
      exact (hcache i hi).trans ((List.getElem?_eq_getElem hi).trans (congrArg some hloader))

/-! ### The load -/

theorem loadScripts_of_loads {files : List (ScriptFile C)} (h : ∀ file ∈ files, Loads file)
    (s : Registry (ScriptFile C) C) :
    loadScripts className files s = .ok () (loadAll className (loadable files) { s with manager := .empty }) := by
  have hloop := forM_ready className (loadable files) [] { s with manager := .empty }
  rw [List.append_nil, ← entries_of_loads h] at hloop
  exact hloop

variable (className) in
/-- The first file that fails ends the load. -/
theorem loadScripts_of_failure {before : List (ScriptFile C)} (h : ∀ file ∈ before, Loads file) {file : ScriptFile C}
    {e : Thrown} (he : loadScript file = .error e) (after : List (ScriptFile C)) (s : Registry (ScriptFile C) C) :
    ∃ loaders, loadScripts className (before ++ file :: after) s = .error e.exception
      { loadAll className (loadable before) { s with manager := .empty } with loaders := loaders } := by
  have hloop := forM_ready className (loadable before) (entries (file :: after))
    { s with manager := .empty }
  have hentries : entries (before ++ file :: after) = ready (loadable before) ++ entries (file :: after) := by
    rw [← entries_of_loads h]
    exact List.map_append
  rw [← hentries] at hloop
  refine ⟨(loadAll className (loadable before) { s with manager := .empty }).loaders + 1, hloop.trans ?_⟩
  rw [entries, List.map_cons, he]
  rfl

/-- What the registry holds does not depend on the class loaders made since. -/
theorem Holds.loaders {scripts : List (ScriptFile C × ScriptInfo C)} {s : Registry (ScriptFile C) C}
    (h : Holds className scripts s) (n : ℕ) : Holds className scripts { s with loaders := n } := ⟨h.found, h.only⟩

omit className in
theorem exists_error {file : ScriptFile C} (h : ¬ Loads file) : ∃ e, loadScript file = .error e := by
  rcases hload : loadScript file with e | info
  · exact ⟨e, rfl⟩
  · exact absurd ⟨info, hload⟩ h

variable {s : Registry (ScriptFile C) C}

/-- What is left when a file fails: the scripts before it. -/
theorem holds_before_failure (h : Reach (step className) anyStep start s) {before : List (ScriptFile C)}
    (hbefore : ∀ file ∈ before, Loads file) {file : ScriptFile C} {e : Thrown} (he : loadScript file = .error e)
    (after : List (ScriptFile C)) (hdistinct : Distinct className (loadable before)) :
    answer (loadScripts className (before ++ file :: after) s) = .error e.exception ∧
      Holds className (loadable before) (left (loadScripts className (before ++ file :: after) s)) := by
  have hw := wellFormed_reach h
  obtain ⟨loaders, hrun⟩ := loadScripts_of_failure className hbefore he after s
  rw [hrun]
  exact ⟨rfl, (holds_loadAll (loadable before) hw hdistinct).loaders loaders⟩

/-- In whatever state the registry is, loading a directory returns, and leaves exactly the
scripts of the files that load if they have different names and descriptions, if and only
if every file loads. -/
theorem others_survive_iff (h : Reach (step className) anyStep start s) (files : List (ScriptFile C)) :
    (answer (loadScripts className files s) = .ok () ∧ (Distinct className (loadable files) →
      Holds className (loadable files) (left (loadScripts className files s)))) ↔ ∀ file ∈ files, Loads file := by
  have hw := wellFormed_reach h
  constructor
  · rintro ⟨hok, -⟩
    by_contra hall
    obtain ⟨before, file, after, rfl, hbefore, hfile⟩ := exists_first_not hall
    obtain ⟨e, he⟩ := exists_error hfile
    obtain ⟨loaders, hrun⟩ := loadScripts_of_failure className hbefore he after s
    rw [hrun] at hok
    cases hok
  · intro hall
    rw [loadScripts_of_loads hall]
    exact ⟨rfl, fun hdistinct => holds_loadAll (loadable files) hw hdistinct⟩

end Service

/-! ### Three files -/

/-- A file that cannot be read. -/
def unreadable : ScriptFile Empty :=
  ⟨lit "A.java", lit "/scripts/A.java", .error ⟨.ioException, none⟩, fun _ _ => .error ⟨.classNotFound, none⟩⟩

/-- Files that load. -/
def readable : ScriptFile Empty :=
  ⟨lit "B.java", lit "/scripts/B.java", .ok (lit "class B {}"), fun _ _ => .ok ⟨true, .ok ⟨"B", none⟩⟩⟩

def further : ScriptFile Empty :=
  ⟨lit "C.java", lit "/scripts/C.java", .ok (lit "class C {}"), fun _ _ => .ok ⟨true, .ok ⟨"C", none⟩⟩⟩

/-- The names of their classes. -/
def threeNames (file : ScriptFile Empty) : String :=
  if file.getName = lit "A.java" then "A" else if file.getName = lit "B.java" then "B" else "C"

/-- With a script already there, two files are loaded, or three of which the second fails. -/
theorem others_survive_iff_three : ∃ s : Registry (ScriptFile Empty) Empty,
    Reach (step threeNames) anyStep start s ∧ s.manager.getScriptByName "B" = some 0 ∧
    (answer (loadScripts threeNames [readable, further] s) = .ok () ∧
      Holds threeNames (loadable [readable, further]) (left (loadScripts threeNames [readable, further] s))) ∧
    ¬ (answer (loadScripts threeNames [readable, unreadable, further] s) = .ok () ∧
      (Distinct threeNames (loadable [readable, unreadable, further]) →
        Holds threeNames (loadable [readable, unreadable, further])
          (left (loadScripts threeNames [readable, unreadable, further] s)))) := by
  have hr : Reach (step threeNames) anyStep (start : Registry (ScriptFile Empty) Empty) _ :=
    reach_of_run [.parse readable (.ok ⟨"B", none⟩), .put 0] .start rfl
  refine ⟨_, hr, rfl, ?_, fun h => ?_⟩
  · have hdistinct : Distinct threeNames (loadable [readable, further]) := by
      unfold Distinct
      exact ⟨by decide, by decide⟩
    have hloads : ∀ file ∈ [readable, further], Loads file := by
      simp only [List.forall_mem_cons]
      exact ⟨⟨⟨"B", none⟩, rfl⟩, ⟨⟨"C", none⟩, rfl⟩, nofun⟩
    obtain ⟨hok, hholds⟩ := (others_survive_iff hr [readable, further]).mpr hloads
    exact ⟨hok, hholds hdistinct⟩
  · have hall := (others_survive_iff hr [readable, unreadable, further]).mp h
    obtain ⟨info, hinfo⟩ := hall unreadable (by simp)
    cases hinfo

/-- The one file takes down the load, and the other is not there. -/
theorem taken_down : Loads readable ∧ Distinct threeNames (loadable [unreadable, readable]) ∧
    answer (loadScripts threeNames [unreadable, readable] start) = .error .loadScript ∧
    (left (loadScripts threeNames [unreadable, readable] start)).manager.getScriptByName "B" = none := by
  refine ⟨⟨⟨"B", none⟩, rfl⟩, ?_, rfl, rfl⟩
  unfold Distinct
  exact ⟨by decide, by decide⟩

end ScriptLoading
end PGCon

/-
# The script registry

`ScriptManager` finds a `ScriptCache` by the name of its script's class, by the
class itself and by its description: three maps, which `putScript` fills one
after the other. `ScriptService.reloadScripts` loads the script again and puts the
new instance into the cache in place.

Every load makes a new class loader, so it defines a new class, of the same name.
Two things therefore take the maps apart. Two caches never share a class, so a
cache put under the name or the description of another leaves the other in the
class map only. And a cache that is reloaded while registered is not found by its
new class. Nothing else does: as long as neither happens the maps are coherent,
and the first step of either kind ends it (`coherent_and_step_iff`). Loading a
directory is coherent whenever its scripts have different names and descriptions,
whatever was registered before (`coherent_loadScripts`).
-/
import PGCon.Machine
import PGCon.Effect
import PGCon.Protocol

namespace PGCon
namespace ScriptRegistry

open Effect Machine

/-- A class of the virtual machine: the loader that defined it, and its name. -/
structure JavaClass where
  loader : ℕ
  name : String
  deriving DecidableEq, Repr

/-- `ScriptInfo`, as far as the registry reads it. -/
structure ScriptInfo (C : Type) where
  description : String
  config : Option C

/-- A script: an instance of a class, and its `getInfo()`. -/
structure Script (C : Type) where
  getClass : JavaClass
  info : ScriptInfo C

/-- `ScriptCache`. -/
structure ScriptCache (File C : Type) where
  name : String
  description : String
  script : Script C
  scriptFile : File

/-- The three maps of `ScriptManager`, to references of caches. -/
structure ScriptManager where
  nameMap : String → Option ℕ
  descriptionMap : String → Option ℕ
  classMap : JavaClass → Option ℕ

/-- The registry, the caches built so far (a reference is an index; any other
number is `null`), and the number of class loaders made. -/
structure Registry (File C : Type) where
  manager : ScriptManager
  caches : List (ScriptCache File C)
  loaders : ℕ

namespace ScriptManager

def empty : ScriptManager := ⟨fun _ => none, fun _ => none, fun _ => none⟩

def getScriptByName (m : ScriptManager) (scriptName : String) : Option ℕ := m.nameMap scriptName

def getScriptByDescription (m : ScriptManager) (scriptName : String) : Option ℕ := m.descriptionMap scriptName

def getScriptByClass (m : ScriptManager) (scriptClass : JavaClass) : Option ℕ := m.classMap scriptClass

/-- The cache is in one of the maps. -/
def Registered (m : ScriptManager) (c : ℕ) : Prop :=
  (∃ k, m.nameMap k = some c) ∨ (∃ k, m.descriptionMap k = some c) ∨ ∃ k, m.classMap k = some c

theorem not_registered_empty (c : ℕ) : ¬ empty.Registered c := by
  rintro (⟨k, hk⟩ | ⟨k, hk⟩ | ⟨k, hk⟩) <;> cases hk

end ScriptManager

variable {File C : Type}

/-! ### `ScriptManager` and `ScriptService` -/

/-- `ScriptManager.clear`. -/
def clear : Java (Registry File C) Unit := modify fun s => { s with manager := .empty }

/-- A field access on a reference. -/
def deref (c : ℕ) : Java (Registry File C) (ScriptCache File C) := fun s =>
  match s.caches[c]? with
  | some cache => .ok cache s
  | none => .error .nullPointer s

/-- `ScriptManager.putScript`. -/
def putScript (c : ℕ) : Java (Registry File C) Unit := do
  let scriptCache ← deref c
  modify fun s => { s with
    manager.descriptionMap := Function.update s.manager.descriptionMap scriptCache.description (some c) }
  modify fun s => { s with
    manager.nameMap := Function.update s.manager.nameMap scriptCache.name (some c) }
  modify fun s => { s with
    manager.classMap := Function.update s.manager.classMap scriptCache.script.getClass (some c) }

section Service

variable (className : File → String)

/-- `ScriptLoader.loadScript`: a new class loader, then what compiling the file and
constructing the instance comes to. -/
def loadScript (file : File) (load : Except JavaException (ScriptInfo C)) : Java (Registry File C) (Script C) := do
  let loader := (← get).loaders
  modify fun s => { s with loaders := s.loaders + 1 }
  match load with
  | .ok info => return ⟨⟨loader, className file⟩, info⟩
  | .error e => throw e

/-- `parseScript`: a new cache. -/
def parseScript (file : File) (load : Except JavaException (ScriptInfo C)) : Java (Registry File C) ℕ := do
  let script ← loadScript className file load
  let c := (← get).caches.length
  modify fun s => { s with caches := s.caches ++ [⟨script.getClass.name, script.info.description, script, file⟩] }
  return c

/-- The new script's configuration, with what is copied into it from the old one's
if both have one. What `BeanUtils.copyProperties(dest, orig)` does is an argument. -/
def copyConfig (copyProperties : C → C → Except JavaException C) : Option C → Option C → Except JavaException (Option C)
  | some dest, some orig => match copyProperties dest orig with
    | .ok copied => .ok (some copied)
    | .error _ => .error .alertError
  | config, _ => .ok config

/-- `reloadScripts`. -/
def reloadScripts (c : ℕ) (load : Except JavaException (ScriptInfo C)) (copyProperties : C → C → Except JavaException C) :
    Java (Registry File C) Unit := do
  let scriptCache ← deref c
  let script ← loadScript className scriptCache.scriptFile load
  match copyConfig copyProperties script.info.config scriptCache.script.info.config with
  | .ok config =>
    let script := { script with info.config := config }
    modify fun s => { s with caches := s.caches.set c { scriptCache with script := script } }
  | .error e => throw e

/-- `loadScripts`, over the files found and what loading each comes to. -/
def loadScripts (files : List (File × Except JavaException (ScriptInfo C))) : Java (Registry File C) Unit := do
  clear
  files.forM fun f => do
    let c ← parseScript className f.1 f.2
    putScript c

/-! ### Runs -/

/-- What can be called. -/
inductive Action (File C : Type)
  | clear
  | parse (file : File) (load : Except JavaException (ScriptInfo C))
  | put (c : ℕ)
  | reload (c : ℕ) (load : Except JavaException (ScriptInfo C)) (copyProperties : C → C → Except JavaException C)

/-- A call, whether it returns or throws. -/
def step (s : Registry File C) : Action File C → Option (Registry File C)
  | .clear => some (left (clear s))
  | .parse file load => some (left (parseScript className file load s))
  | .put c => some (left (putScript c s))
  | .reload c load copyProperties => some (left (reloadScripts className c load copyProperties s))

/-- Nothing loaded, nothing registered. -/
def start : Registry File C := ⟨.empty, [], 0⟩

/-- Every cache registered is found by each of its three keys. -/
def Coherent (s : Registry File C) : Prop := ∀ c, s.manager.Registered c → ∃ cache, s.caches[c]? = some cache ∧
  s.manager.getScriptByName cache.script.getClass.name = some c ∧
  s.manager.getScriptByClass cache.script.getClass = some c ∧
  s.manager.getScriptByDescription cache.description = some c

/-- The calls that keep the maps together: no cache is put under the name or the
description of another one registered, and none is reloaded while registered. -/
def Apart (s : Registry File C) : Action File C → Prop
  | .clear => True
  | .parse _ _ => True
  | .put c => ∀ cache, s.caches[c]? = some cache → ∀ c' other, c' ≠ c → s.manager.Registered c' →
      s.caches[c']? = some other → other.name ≠ cache.name ∧ other.description ≠ cache.description
  | .reload c load copyProperties =>
      answer (reloadScripts className c load copyProperties s) = .ok () → ¬ s.manager.Registered c

/-! ### One call -/

theorem deref_none {s : Registry File C} {c : ℕ} (h : s.caches[c]? = none) :
    deref c s = .error .nullPointer s := by
  unfold deref
  rw [h]

theorem deref_some {s : Registry File C} {c : ℕ} {cache : ScriptCache File C} (h : s.caches[c]? = some cache) :
    deref c s = .ok cache s := by
  unfold deref
  rw [h]

/-- The maps after `putScript`. -/
def ScriptManager.put (m : ScriptManager) (c : ℕ) (cache : ScriptCache File C) : ScriptManager where
  nameMap := Function.update m.nameMap cache.name (some c)
  descriptionMap := Function.update m.descriptionMap cache.description (some c)
  classMap := Function.update m.classMap cache.script.getClass (some c)

theorem putScript_run {s : Registry File C} {c : ℕ} {cache : ScriptCache File C} (h : s.caches[c]? = some cache) :
    putScript c s = .ok () { s with manager := s.manager.put c cache } := by
  unfold putScript
  rw [bind_of_ok (deref_some h)]
  rfl

theorem putScript_null {s : Registry File C} {c : ℕ} (h : s.caches[c]? = none) :
    putScript c s = .error .nullPointer s := by
  unfold putScript
  rw [bind_run, deref_none h]

theorem loadScript_ok (file : File) (info : ScriptInfo C) (s : Registry File C) :
    loadScript className file (.ok info) s =
      .ok ⟨⟨s.loaders, className file⟩, info⟩ { s with loaders := s.loaders + 1 } := rfl

/-- A parse that throws adds no cache; otherwise the cache is of a new class. -/
theorem parseScript_run (file : File) (load : Except JavaException (ScriptInfo C)) (s : Registry File C) :
    (∃ e, parseScript className file load s = .error e { s with loaders := s.loaders + 1 }) ∨
    ∃ info, load = .ok info ∧ parseScript className file load s = .ok s.caches.length
      { s with
        caches := s.caches ++ [⟨className file, info.description, ⟨⟨s.loaders, className file⟩, info⟩, file⟩]
        loaders := s.loaders + 1 } := by
  cases load with
  | error e => exact .inl ⟨e, rfl⟩
  | ok info => exact .inr ⟨info, rfl, rfl⟩

/-- A reload that throws changes no cache; otherwise the cache has an instance of
a new class. -/
theorem reloadScripts_run (c : ℕ) (load : Except JavaException (ScriptInfo C))
    (copyProperties : C → C → Except JavaException C) (s : Registry File C) :
    (∃ e n, s.loaders ≤ n ∧ reloadScripts className c load copyProperties s = .error e { s with loaders := n }) ∨
    ∃ cache info, s.caches[c]? = some cache ∧ reloadScripts className c load copyProperties s = .ok ()
      { s with
        caches := s.caches.set c { cache with script := ⟨⟨s.loaders, className cache.scriptFile⟩, info⟩ }
        loaders := s.loaders + 1 } := by
  cases hc : s.caches[c]? with
  | none =>
    refine .inl ⟨.nullPointer, s.loaders, le_refl _, ?_⟩
    unfold reloadScripts
    rw [bind_run, deref_none hc]
  | some cache =>
    unfold reloadScripts
    rw [bind_of_ok (deref_some hc)]
    cases load with
    | error e => exact .inl ⟨e, s.loaders + 1, by omega, rfl⟩
    | ok info =>
      rw [bind_of_ok (loadScript_ok className cache.scriptFile info s)]
      dsimp only
      cases copyConfig copyProperties info.config cache.script.info.config with
      | ok config => exact .inr ⟨cache, { info with config := config }, rfl, rfl⟩
      | error e => exact .inl ⟨e, s.loaders + 1, by omega, rfl⟩

/-- What a call can do. -/
inductive Steps (s : Registry File C) : Action File C → Registry File C → Prop
  | clear : Steps s .clear { s with manager := .empty }
  | threw {a : Action File C} {n : ℕ} (hn : s.loaders ≤ n) (ha : Apart className s a) :
      Steps s a { s with loaders := n }
  | parse (file : File) (info : ScriptInfo C) : Steps s (.parse file (.ok info)) { s with
      caches := s.caches ++ [⟨className file, info.description, ⟨⟨s.loaders, className file⟩, info⟩, file⟩]
      loaders := s.loaders + 1 }
  | put {c : ℕ} {cache : ScriptCache File C} (hc : s.caches[c]? = some cache) :
      Steps s (.put c) { s with manager := s.manager.put c cache }
  | reload {c : ℕ} {cache : ScriptCache File C} {load : Except JavaException (ScriptInfo C)}
      {copyProperties : C → C → Except JavaException C} (info : ScriptInfo C) (hc : s.caches[c]? = some cache)
      (hok : answer (reloadScripts className c load copyProperties s) = .ok ()) :
      Steps s (.reload c load copyProperties) { s with
        caches := s.caches.set c { cache with script := ⟨⟨s.loaders, className cache.scriptFile⟩, info⟩ }
        loaders := s.loaders + 1 }

theorem steps_of_step {s s' : Registry File C} {a : Action File C} (h : step className s a = some s') :
    Steps className s a s' := by
  cases a with
  | clear =>
    cases h
    exact .clear
  | parse file load =>
    obtain rfl := Option.some.inj h
    rcases parseScript_run className file load s with ⟨e, hp⟩ | ⟨info, rfl, hp⟩
    · rw [hp]
      exact .threw (Nat.le_succ _) trivial
    · rw [hp]
      exact .parse file info
  | put c =>
    obtain rfl := Option.some.inj h
    cases hc : s.caches[c]? with
    | none =>
      rw [putScript_null hc]
      refine .threw (le_refl s.loaders) fun cache hcache => ?_
      rw [hc] at hcache
      cases hcache
    | some cache =>
      rw [putScript_run hc]
      exact .put hc
  | reload c load copyProperties =>
    obtain rfl := Option.some.inj h
    rcases reloadScripts_run className c load copyProperties s with ⟨e, n, hn, hr⟩ | ⟨cache, info, hc, hr⟩
    · have hfails : answer (reloadScripts className c load copyProperties s) ≠ .ok () := by
        rw [hr]
        nofun
      rw [hr]
      exact .threw hn fun hok => absurd hok hfails
    · have hok : answer (reloadScripts className c load copyProperties s) = .ok () := by
        rw [hr]
        rfl
      rw [hr]
      exact .reload info hc hok

/-! ### What every run keeps -/

/-- A cache has the name of its script's class; classes are told apart by their
loaders, which are among those made so far. -/
structure WellFormed (s : Registry File C) : Prop where
  name : ∀ (c : ℕ) (cache : ScriptCache File C), s.caches[c]? = some cache →
    cache.name = className cache.scriptFile ∧ cache.script.getClass.name = className cache.scriptFile
  loader : ∀ (c : ℕ) (cache : ScriptCache File C), s.caches[c]? = some cache → cache.script.getClass.loader < s.loaders
  distinct : ∀ (c c' : ℕ) (cache cache' : ScriptCache File C), s.caches[c]? = some cache →
    s.caches[c']? = some cache' →
    cache.script.getClass.loader = cache'.script.getClass.loader → c = c'
  keys : ∀ k c, s.manager.classMap k = some c → k.loader < s.loaders

variable {className}

theorem wellFormed_start : WellFormed className (start : Registry File C) :=
  ⟨nofun, nofun, nofun, nofun⟩

/-- A class loader more. -/
theorem WellFormed.loaders {s : Registry File C} (h : WellFormed className s) {n : ℕ} (hn : s.loaders ≤ n) :
    WellFormed className { s with loaders := n } where
  name := h.name
  loader c cache hc := (h.loader c cache hc).trans_le hn
  distinct := h.distinct
  keys k c hk := (h.keys k c hk).trans_le hn

theorem WellFormed.clear {s : Registry File C} (h : WellFormed className s) :
    WellFormed className { s with manager := .empty } where
  name := h.name
  loader := h.loader
  distinct := h.distinct
  keys := nofun

theorem WellFormed.put {s : Registry File C} (h : WellFormed className s) {c : ℕ} {cache : ScriptCache File C}
    (hc : s.caches[c]? = some cache) : WellFormed className { s with manager := s.manager.put c cache } where
  name := h.name
  loader := h.loader
  distinct := h.distinct
  keys k d hk := by
    by_cases hkey : k = cache.script.getClass
    · rw [hkey]
      exact h.loader c cache hc
    · exact h.keys k d ((Function.update_of_ne hkey _ _).symm.trans hk)

/-- The cache `c` gets a script of the class made now; all others stay. -/
theorem WellFormed.define {s : Registry File C} (h : WellFormed className s) {caches : List (ScriptCache File C)}
    {c : ℕ} {cache : ScriptCache File C} (hc : caches[c]? = some cache)
    (hold : ∀ c' ≠ c, caches[c']? = s.caches[c']?)
    (hname : cache.name = className cache.scriptFile)
    (hcls : cache.script.getClass = ⟨s.loaders, className cache.scriptFile⟩) :
    WellFormed className { s with caches := caches, loaders := s.loaders + 1 } where
  name c' cache' hc' := by
    by_cases he : c' = c
    · obtain rfl : cache' = cache := by rw [he, hc] at hc'; exact (Option.some.inj hc').symm
      exact ⟨hname, by rw [hcls]⟩
    · exact h.name c' cache' ((hold c' he).symm.trans hc')
  loader c' cache' hc' := by
    by_cases he : c' = c
    · obtain rfl : cache' = cache := by rw [he, hc] at hc'; exact (Option.some.inj hc').symm
      rw [hcls]
      exact Nat.lt_succ_self _
    · exact Nat.lt_succ_of_lt (h.loader c' cache' ((hold c' he).symm.trans hc'))
  distinct := by
    -- the new class differs from every other by its loader
    have hnew : ∀ d other, d ≠ c → caches[d]? = some other →
        other.script.getClass.loader ≠ cache.script.getClass.loader := by
      intro d other hd ho
      have hlt := h.loader d other ((hold d hd).symm.trans ho)
      rw [hcls]
      exact hlt.ne
    intro a b x y ha hb hxy
    by_cases hac : a = c <;> by_cases hbc : b = c
    · rw [hac, hbc]
    · rw [hac, hc] at ha
      cases ha
      exact absurd hxy.symm (hnew b y hbc hb)
    · rw [hbc, hc] at hb
      cases hb
      exact absurd hxy (hnew a x hac ha)
    · exact h.distinct a b x y ((hold a hac).symm.trans ha) ((hold b hbc).symm.trans hb) hxy
  keys k d hk := Nat.lt_succ_of_lt (h.keys k d hk)

theorem WellFormed.parse {s : Registry File C} (h : WellFormed className s) (file : File) (info : ScriptInfo C) :
    WellFormed className { s with
      caches := s.caches ++ [⟨className file, info.description, ⟨⟨s.loaders, className file⟩, info⟩, file⟩]
      loaders := s.loaders + 1 } := by
  refine h.define List.getElem?_concat_length ?_ rfl rfl
  intro c hc
  rw [List.getElem?_append]
  split
  · rfl
  · rw [List.getElem?_eq_none (by simp; omega), List.getElem?_eq_none (by omega)]

theorem WellFormed.reload {s : Registry File C} (h : WellFormed className s) {c : ℕ} {cache : ScriptCache File C}
    (hc : s.caches[c]? = some cache) (info : ScriptInfo C) :
    WellFormed className { s with
      caches := s.caches.set c { cache with script := ⟨⟨s.loaders, className cache.scriptFile⟩, info⟩ }
      loaders := s.loaders + 1 } := by
  have hlt : c < s.caches.length := (List.getElem?_eq_some_iff.mp hc).1
  refine h.define (List.getElem?_set_self hlt) (fun c' hc' => List.getElem?_set_ne hc'.symm) ?_ rfl
  exact (h.name c cache hc).1

theorem wellFormed_step (s : Registry File C) (a : Action File C) (s' : Registry File C)
    (h : WellFormed className s) (hs : step className s a = some s') : WellFormed className s' := by
  cases steps_of_step className hs with
  | clear => exact h.clear
  | threw hn _ => exact h.loaders hn
  | parse file info => exact h.parse file info
  | put hc => exact h.put hc
  | reload info hc _ => exact h.reload hc info

/-- A run keeps it, whatever its steps. -/
theorem wellFormed_reach {ok : Registry File C → Action File C → Prop} {s : Registry File C}
    (h : Reach (step className) ok start s) : WellFormed className s :=
  h.invariant wellFormed_start fun t a t' ht _ hs => wellFormed_step t a t' ht hs

/-! ### Coherence -/

theorem of_update_some {K : Type} [DecidableEq K] {f : K → Option ℕ} {k k' : K} {c c' : ℕ} (hne : c' ≠ c)
    (h : Function.update f k (some c) k' = some c') : f k' = some c' := by
  by_cases hk : k' = k
  · rw [hk, Function.update_self] at h
    exact absurd (Option.some.inj h).symm hne
  · rwa [Function.update_of_ne hk] at h

omit className in
theorem ScriptManager.Registered.of_put {m : ScriptManager} {c c' : ℕ} {cache : ScriptCache File C}
    (h : (m.put c cache).Registered c') (hne : c' ≠ c) : m.Registered c' := by
  rcases h with ⟨k, hk⟩ | ⟨k, hk⟩ | ⟨k, hk⟩
  · exact .inl ⟨k, of_update_some hne hk⟩
  · exact .inr (.inl ⟨k, of_update_some hne hk⟩)
  · exact .inr (.inr ⟨k, of_update_some hne hk⟩)

/-- A cache put is found; another one registered is found still, unless it has
lost its name or its description. -/
theorem coherent_put {s : Registry File C} (h : Coherent s) (hw : WellFormed className s) {c : ℕ}
    {cache : ScriptCache File C} (hc : s.caches[c]? = some cache) :
    Coherent { s with manager := s.manager.put c cache } ↔ Apart className s (.put c) := by
  have hname := hw.name c cache hc
  -- no other cache has the class of this one
  have hclass : ∀ c' other, c' ≠ c → s.caches[c']? = some other →
      other.script.getClass ≠ cache.script.getClass := by
    intro c' other hne hother heq
    exact hne (hw.distinct c' c other cache hother hc (congrArg JavaClass.loader heq))
  constructor
  · intro hcoh cache' hc' c' other hne hreg hother
    obtain rfl : cache = cache' := Option.some.inj (hc.symm.trans hc')
    obtain ⟨other', hother', -, hcls, -⟩ := h c' hreg
    obtain rfl : other = other' := Option.some.inj (hother.symm.trans hother')
    -- the other one stays registered under its class
    have hreg' : (s.manager.put c cache).Registered c' :=
      .inr (.inr ⟨other.script.getClass, (Function.update_of_ne (hclass c' other hne hother) _ _).trans hcls⟩)
    obtain ⟨other', hother', hbyName, -, hbyDescription⟩ := hcoh c' hreg'
    obtain rfl : other = other' := Option.some.inj (hother.symm.trans hother')
    have hothers := hw.name c' other hother
    constructor
    · intro heq
      have hkey : other.script.getClass.name = cache.name := by rw [hothers.2, ← hothers.1, heq]
      have hfound : (s.manager.put c cache).getScriptByName cache.name = some c := Function.update_self _ _ _
      rw [hkey, hfound] at hbyName
      exact hne (Option.some.inj hbyName).symm
    · intro heq
      have hfound : (s.manager.put c cache).getScriptByDescription cache.description = some c :=
        Function.update_self _ _ _
      rw [heq, hfound] at hbyDescription
      exact hne (Option.some.inj hbyDescription).symm
  · intro hapart c' hreg
    by_cases hne : c' = c
    · subst hne
      refine ⟨cache, hc, ?_, Function.update_self _ _ _, Function.update_self _ _ _⟩
      rw [hname.2, ← hname.1]
      exact Function.update_self _ _ _
    · obtain ⟨other, hother, hbyName, hbyClass, hbyDescription⟩ := h c' (hreg.of_put hne)
      obtain ⟨hn, hd⟩ := hapart cache hc c' other hne (hreg.of_put hne) hother
      have hothers := hw.name c' other hother
      have hn' : other.script.getClass.name ≠ cache.name := by rwa [hothers.2, ← hothers.1]
      exact ⟨other, hother, (Function.update_of_ne hn' _ _).trans hbyName,
        (Function.update_of_ne (hclass c' other hne hother) _ _).trans hbyClass,
        (Function.update_of_ne hd _ _).trans hbyDescription⟩

/-- A cache reloaded is not found by its new class, so it must not be registered. -/
theorem coherent_reload {s : Registry File C} (h : Coherent s) (hw : WellFormed className s) {c : ℕ}
    {cache : ScriptCache File C} (hc : s.caches[c]? = some cache) (info : ScriptInfo C) :
    Coherent { s with
      caches := s.caches.set c { cache with script := ⟨⟨s.loaders, className cache.scriptFile⟩, info⟩ }
      loaders := s.loaders + 1 } ↔ ¬ s.manager.Registered c := by
  have hlt : c < s.caches.length := (List.getElem?_eq_some_iff.mp hc).1
  constructor
  · intro hcoh hreg
    obtain ⟨reloaded, hreloaded, -, hbyClass, -⟩ := hcoh c hreg
    obtain rfl := Option.some.inj ((List.getElem?_set_self hlt).symm.trans hreloaded)
    have hold : s.loaders < s.loaders := hw.keys _ _ hbyClass
    exact absurd hold (lt_irrefl _)
  · intro hun c' hreg
    have hne : c ≠ c' := by
      rintro rfl
      exact hun hreg
    obtain ⟨other, hother, hfound⟩ := h c' hreg
    exact ⟨other, (List.getElem?_set_ne hne).trans hother, hfound⟩

/-- Caches nobody has registered make no difference. -/
theorem coherent_append {s : Registry File C} (h : Coherent s) (more : List (ScriptCache File C)) (n : ℕ) :
    Coherent { s with caches := s.caches ++ more, loaders := n } := by
  intro c hreg
  obtain ⟨cache, hc, hfound⟩ := h c hreg
  exact ⟨cache, (List.getElem?_append_left (List.getElem?_eq_some_iff.mp hc).1).trans hc, hfound⟩

theorem coherent_empty (caches : List (ScriptCache File C)) (n : ℕ) :
    Coherent ⟨.empty, caches, n⟩ :=
  fun c hreg => absurd hreg (ScriptManager.not_registered_empty c)

/-- From a coherent state a call leads to a coherent state if and only if it keeps
the maps together. -/
theorem coherent_step_iff {s s' : Registry File C} {a : Action File C} (h : Coherent s)
    (hw : WellFormed className s) (hs : step className s a = some s') : Coherent s' ↔ Apart className s a := by
  cases steps_of_step className hs with
  | clear => exact iff_of_true (coherent_empty _ _) trivial
  | threw hn ha => exact iff_of_true h ha
  | parse file info => exact iff_of_true (coherent_append h _ _) trivial
  | put hc => exact coherent_put h hw hc
  | reload info hc hok =>
    rw [coherent_reload h hw hc info]
    exact ⟨fun hun _ => hun, fun ha => ha hok⟩

/-- In every run whose calls keep the maps together they are coherent, and the
first call that does not ends it. -/
theorem coherent_and_step_iff {s : Registry File C}
    (h : Reach (step className) (Apart className) start s) :
    Coherent s ∧ ∀ a s', step className s a = some s' → (Coherent s' ↔ Apart className s a) := by
  have hstep : ∀ (t : Registry File C) a t', Coherent t ∧ WellFormed className t → Apart className t a →
      step className t a = some t' → Coherent t' ∧ WellFormed className t' := by
    intro t a t' ht ha hs
    exact ⟨(coherent_step_iff ht.1 ht.2 hs).mpr ha, wellFormed_step t a t' ht.2 hs⟩
  obtain ⟨hcoh, hw⟩ := h.invariant ⟨coherent_empty _ _, wellFormed_start⟩ hstep
  exact ⟨hcoh, fun a s' hs => coherent_step_iff hcoh hw hs⟩

/-! ### Loading a directory -/

variable (className) in
/-- The names of the classes in the files. -/
def names (files : List (File × Except JavaException (ScriptInfo C))) : List String :=
  files.map fun f => className f.1

/-- The descriptions of those that load. -/
def descriptions (files : List (File × Except JavaException (ScriptInfo C))) : List String :=
  files.filterMap fun f => f.2.toOption.map ScriptInfo.description

variable (className) in
/-- Nothing registered has a name or a description of these files. -/
def Free (files : List (File × Except JavaException (ScriptInfo C))) (s : Registry File C) : Prop :=
  ∀ (c : ℕ) (cache : ScriptCache File C), s.manager.Registered c → s.caches[c]? = some cache →
    cache.name ∉ names className files ∧ cache.description ∉ descriptions files

variable (className) in
/-- The cache of a file that loads, of the class made with this loader. -/
def cacheOf (file : File) (info : ScriptInfo C) (loader : ℕ) : ScriptCache File C :=
  ⟨className file, info.description, ⟨⟨loader, className file⟩, info⟩, file⟩

variable (className) in
/-- The registry with one file more. -/
def Registry.load (s : Registry File C) (file : File) (info : ScriptInfo C) : Registry File C where
  manager := s.manager.put s.caches.length (cacheOf className file info s.loaders)
  caches := s.caches ++ [cacheOf className file info s.loaders]
  loaders := s.loaders + 1

theorem parse_put_run (file : File) (info : ScriptInfo C) (s : Registry File C) :
    (do let c ← parseScript className file (.ok info); putScript c) s = .ok () (s.load className file info) := by
  have hc : (s.caches ++ [cacheOf className file info s.loaders])[s.caches.length]? = some _ :=
    List.getElem?_concat_length
  change putScript s.caches.length
    ⟨s.manager, s.caches ++ [cacheOf className file info s.loaders], s.loaders + 1⟩ = _
  exact putScript_run hc

/-- One file more, its name and description free. -/
theorem parse_put {file : File} {info : ScriptInfo C} {files : List (File × Except JavaException (ScriptInfo C))}
    {s : Registry File C} (h : Coherent s) (hw : WellFormed className s)
    (hfree : Free className ((file, .ok info) :: files) s) (hname : className file ∉ names className files)
    (hdescription : info.description ∉ descriptions files) :
    Coherent (s.load className file info) ∧ WellFormed className (s.load className file info) ∧
      Free className files (s.load className file info) := by
  have hc : (s.caches ++ [cacheOf className file info s.loaders])[s.caches.length]? = some _ :=
    List.getElem?_concat_length
  have hw' := hw.parse file info
  have hcoh' := coherent_append h [cacheOf className file info s.loaders] (s.loaders + 1)
  -- a cache registered before is one of those there before
  have hother : ∀ c other, s.manager.Registered c →
      (s.caches ++ [cacheOf className file info s.loaders])[c]? = some other → s.caches[c]? = some other := by
    intro c other hreg ho
    obtain ⟨cache, hcache, -⟩ := h c hreg
    rwa [List.getElem?_append_left (List.getElem?_eq_some_iff.mp hcache).1] at ho
  refine ⟨?_, hw'.put hc, ?_⟩
  · refine (coherent_put hcoh' hw' hc).mpr ?_
    intro cache hcache c' other hne hreg ho
    obtain rfl := Option.some.inj (hc.symm.trans hcache)
    obtain ⟨hn, hd⟩ := hfree c' other hreg (hother c' other hreg ho)
    exact ⟨fun he => hn (by rw [he]; exact List.mem_cons_self), fun he => hd (by rw [he]; exact List.mem_cons_self)⟩
  · intro c cache hreg hcache
    by_cases hne : c = s.caches.length
    · subst hne
      obtain rfl := Option.some.inj (hc.symm.trans hcache)
      exact ⟨hname, hdescription⟩
    · obtain ⟨hn, hd⟩ := hfree c cache (hreg.of_put hne) (hother c cache (hreg.of_put hne) hcache)
      exact ⟨fun hm => hn (List.mem_cons_of_mem _ hm), fun hm => hd (List.mem_cons_of_mem _ hm)⟩

/-- What was registered stays, and the new cache is. -/
theorem registered_load {s : Registry File C} (h : Coherent s) (hw : WellFormed className s) (file : File)
    (info : ScriptInfo C) (c : ℕ) :
    (s.load className file info).manager.Registered c ↔ s.manager.Registered c ∨ c = s.caches.length := by
  constructor
  · intro hreg
    by_cases hc : c = s.caches.length
    · exact .inr hc
    · exact .inl (hreg.of_put hc)
  · rintro (hreg | rfl)
    · -- it is found by its class, and the class made now is another
      obtain ⟨cache, -, -, hbyClass, -⟩ := h c hreg
      have hne : cache.script.getClass ≠ ⟨s.loaders, className file⟩ := by
        intro he
        have hold := hw.keys _ _ hbyClass
        rw [he] at hold
        exact absurd hold (lt_irrefl _)
      exact .inr (.inr ⟨cache.script.getClass, (Function.update_of_ne hne _ _).trans hbyClass⟩)
    · exact .inl ⟨className file, Function.update_self _ _ _⟩

/-- The loop of `loadScripts`. -/
theorem coherent_files (files : List (File × Except JavaException (ScriptInfo C))) {s : Registry File C}
    (h : Coherent s) (hw : WellFormed className s) (hfree : Free className files s)
    (hnames : (names className files).Nodup) (hdescriptions : (descriptions files).Nodup) :
    Coherent (left ((files.forM fun f => do let c ← parseScript className f.1 f.2; putScript c) s)) := by
  induction files generalizing s with
  | nil => exact h
  | cons f files ih =>
    obtain ⟨file, load⟩ := f
    obtain ⟨hname, hnames'⟩ := List.nodup_cons.mp hnames
    cases load with
    | error e => exact h
    | ok info =>
      obtain ⟨hdescription, hdescriptions'⟩ := List.nodup_cons.mp hdescriptions
      obtain ⟨hcoh, hw', hfree'⟩ := parse_put h hw hfree hname hdescription
      have hrest := ih hcoh hw' hfree' hnames' hdescriptions'
      exact (congrArg (fun r => Coherent (left r)) (bind_of_ok (parse_put_run file info s))).mpr hrest

/-- Loading files whose classes have different names and whose scripts have
different descriptions leaves the maps coherent, in whatever state the registry
was and even if one of the files fails to load. -/
theorem coherent_loadScripts (files : List (File × Except JavaException (ScriptInfo C))) {s : Registry File C}
    (h : Reach (step className) anyStep start s) (hnames : (names className files).Nodup)
    (hdescriptions : (descriptions files).Nodup) : Coherent (left (loadScripts className files s)) := by
  have hw := wellFormed_reach h
  refine coherent_files files (coherent_empty s.caches s.loaders) hw.clear ?_ hnames hdescriptions
  exact fun c _ hreg => absurd hreg (ScriptManager.not_registered_empty c)

end Service

/-! ### One script -/

/-- The class in the one script file. -/
def onlyName (_ : Unit) : String := "Script"

/-- The registry with that script loaded once. -/
def onlyLoaded : Registry Unit Empty where
  manager := ScriptManager.empty.put 0 (⟨"Script", "a script", ⟨⟨0, "Script"⟩, ⟨"a script", none⟩⟩, ()⟩ :
    ScriptCache Unit Empty)
  caches := [⟨"Script", "a script", ⟨⟨0, "Script"⟩, ⟨"a script", none⟩⟩, ()⟩]
  loaders := 1

theorem coherent_and_step_iff_loaded : Coherent onlyLoaded ∧ ∀ a s', step onlyName onlyLoaded a = some s' →
    (Coherent s' ↔ Apart onlyName onlyLoaded a) :=
  coherent_and_step_iff (.step (.put 0) (.step (.parse () (.ok ⟨"a script", none⟩)) .start trivial rfl)
    (fun _ _ c' _ _ hreg => absurd hreg (ScriptManager.not_registered_empty c')) rfl)

/-- A registered script that is reloaded is not found by its class. -/
theorem reloaded_not_found : ¬ ∀ s : Registry Unit Empty, Reach (step onlyName) anyStep start s →
    Coherent s := by
  intro h
  have hr : Reach (step onlyName) anyStep (start : Registry Unit Empty) _ :=
    reach_of_run [.parse () (.ok ⟨"a script", none⟩), .put 0,
      .reload 0 (.ok ⟨"a script", none⟩) fun _ orig => .ok orig] .start rfl
  obtain ⟨cache, hcache, -, hbyClass, -⟩ := h _ hr 0 (.inl ⟨"Script", rfl⟩)
  obtain rfl := Option.some.inj hcache
  cases hbyClass

end ScriptRegistry
end PGCon

/-
# The scripts' settings

A configurable script has a `Config` object whose fields are JavaFX properties. When the
application starts, `PropertyCacheUtil.bindPropertyBean` fills it from the text saved for the
script's description and listens to its properties: each change saves the whole object again.
A form then edits the same properties.

In debug mode a script is loaded anew before it runs, with a `Config` of its own, possibly of
another version of the class. `BeanUtils.copyProperties` copies the fields the old one has and the
new one has a setter for, and these are references: new and old `Config` then share the property
objects, which are still the ones the form edits and the listeners hear. A field that one version
did not have is made again by the next one that does, as an object nobody listens to. A field with
a getter alone is saved, but nothing ever sets it.

So what a form shows in the fields that have setters is what a restart will show (`saved` of
`Inv`), after any edits, assignments by scripts and reloads. Form and script are of one mind about a
field as long as every version loaded since the start had it, with a setter (`linked` of `Inv`).

What the libraries do is a parameter, with what is used of it in `Libraries.Reliable`.
-/
import PGCon.Machine

namespace PGCon
namespace ScriptConfig

open Machine

/-! ### Objects -/

/-- A property object: its class and its value. -/
structure Property (Kind V : Type) where
  kind : Kind
  value : V
  deriving DecidableEq, Repr

/-- A property object is known by the script and the number of the `Config` object it was made
for, and its field there. -/
structure Ref where
  script : String
  bean : ℕ
  field : String
  deriving DecidableEq, Repr

/-- A version of a script's class `Config`: its fields, which have getters, those with a setter, and
what its constructor puts there. -/
structure ConfigClass (Kind V : Type) where
  fields : List String
  setters : List String
  initial : String → Property Kind V

/-- A `Config` object. -/
structure Bean (Kind V : Type) where
  getClass : ConfigClass Kind V
  refs : String → Ref

/-- What a copy has made of the destination, and whether it has thrown. -/
structure Copied (Kind V : Type) where
  dest : Bean Kind V
  threw : Bool

/-- JSON in Base64, as it is saved, where `none` is an exception; and
`BeanUtils.copyProperties(dest, orig)`, with the property objects there are. -/
structure Libraries (Kind V Text : Type) where
  serialize : List (String × Property Kind V) → Option Text
  parseObject : Text → ConfigClass Kind V → Option (String → Property Kind V)
  copyProperties : (Ref → Property Kind V) → Bean Kind V → Bean Kind V → Copied Kind V

variable {Kind V Text : Type}

/-- What is saved of an object is read back into an object of the same class, where there is a
setter for it. Copying sets the fields that the one has a getter and the other a setter for, and
throws only if an object is not of the class its field is declared with. -/
structure Libraries.Reliable (lib : Libraries Kind V Text) : Prop where
  declared : ∀ {text : Text} {c : ConfigClass Kind V} {values : String → Property Kind V},
    lib.parseObject text c = some values → ∀ n ∈ c.fields, (values n).kind = (c.initial n).kind
  roundTrip : ∀ (c : ConfigClass Kind V) (values : String → Property Kind V),
    (∀ n ∈ c.fields, (values n).kind = (c.initial n).kind) → ∃ text read,
      lib.serialize (c.fields.map fun n => (n, values n)) = some text ∧
        lib.parseObject text c = some read ∧ ∀ n ∈ c.fields, n ∈ c.setters → read n = values n
  getClass : ∀ heap dest orig, (lib.copyProperties heap dest orig).dest.getClass = dest.getClass
  copied : ∀ heap dest orig, (lib.copyProperties heap dest orig).threw = false → ∀ n,
    (lib.copyProperties heap dest orig).dest.refs n =
      if n ∈ orig.getClass.fields ∧ n ∈ dest.getClass.setters then orig.refs n else dest.refs n
  not_threw : ∀ heap dest orig, (∀ n ∈ orig.getClass.fields, n ∈ dest.getClass.setters →
    (heap (orig.refs n)).kind = (dest.getClass.initial n).kind) → (lib.copyProperties heap dest orig).threw = false

/-- The application. `scripts` has the `getConfig()` of every script of `ScriptManager`, `forms`
the object each form edits and `bindPropertyBean` listens to; `reloads` remembers the versions a
script was loaded in since the start. -/
structure State (Kind V Text : Type) where
  /-- `ConfigCacheUtil.CONFIG` is not null -/
  opened : Bool
  /-- the texts in the file, by description -/
  stored : String → Option Text
  heap : Ref → Property Kind V
  made : ℕ
  scripts : String → Option (Option (Bean Kind V))
  forms : String → Option (Bean Kind V)
  reloads : String → List (Option (ConfigClass Kind V))

section

variable [DecidableEq V] (lib : Libraries Kind V Text)

/-! ### `ConfigCacheUtil` and `PropertyCacheUtil` -/

/-- `ConfigCacheUtil.get`. -/
def get (s : State Kind V Text) (key : String) : Option Text := if s.opened then s.stored key else none

/-- An object of the class with these property values. -/
def newBean (script : String) (c : ConfigClass Kind V) (values : String → Property Kind V) (s : State Kind V Text) :
    Bean Kind V × State Kind V Text :=
  (⟨c, fun n => ⟨script, s.made, n⟩⟩,
    { s with
      heap := fun r => if r.script = script ∧ r.bean = s.made then values r.field else s.heap r
      made := s.made + 1 })

/-- `deserialize`: the object read from the text, and its properties for those of the bean. An
exception is caught. -/
def deserialize (key : String) (bean : Bean Kind V) (s : State Kind V Text) : Bean Kind V × State Kind V Text :=
  match (get s key).bind fun cache => lib.parseObject cache bean.getClass with
  | none => (bean, s)
  | some values =>
    let cached := newBean key bean.getClass values s
    ((lib.copyProperties cached.2.heap bean cached.1).dest, cached.2)

/-- The values of a bean, as its listener saves them. -/
def values (s : State Kind V Text) (bean : Bean Kind V) : List (String × Property Kind V) :=
  bean.getClass.fields.map fun n => (n, s.heap (bean.refs n))

/-- A listener of the bean hears the property. -/
def hears (bean : Bean Kind V) (r : Ref) : Bool := r ∈ bean.getClass.fields.map bean.refs

/-- The text of a bean after a property has changed: `ConfigCacheUtil.set` by the listener, if the
bean has one for the property. -/
def save (s : State Kind V Text) (r : Ref) (key : String) : Option Text :=
  match s.forms key with
  | some bean => if hears bean r && s.opened then lib.serialize (values s bean) else s.stored key
  | none => s.stored key

/-- `property.setValue`: listeners hear of it if the value is another one. -/
def setValue (r : Ref) (v : V) (s : State Kind V Text) : State Kind V Text :=
  if (s.heap r).value = v then s
  else
    let s := { s with heap := Function.update s.heap r { s.heap r with value := v } }
    { s with stored := save lib s r }

/-! ### `MainPanel` and `ScriptService` -/

/-- A script of this description is found, with its `new Config()`, and
`bindScriptConfigurationToGUI` binds that if there is one. -/
def bindScript (script : String) (config : Option (ConfigClass Kind V)) (s : State Kind V Text) : State Kind V Text :=
  match config with
  | none => { s with scripts := Function.update s.scripts script (some none) }
  | some c =>
    let new := newBean script c c.initial s
    let bound := deserialize lib script new.1 new.2
    { bound.2 with
      scripts := Function.update bound.2.scripts script (some (some bound.1))
      forms := Function.update bound.2.forms script (some bound.1) }

/-- `initializeScripts`, in a new run of the application. -/
def start (opened : Bool) (scripts : List (String × Option (ConfigClass Kind V))) (s : State Kind V Text) :
    State Kind V Text :=
  scripts.foldl (fun s script => bindScript lib script.1 script.2 s)
    { s with opened := opened, scripts := fun _ => none, forms := fun _ => none, reloads := fun _ => [] }

/-- The configuration of a script that is loaded anew, from that of the old one; `none` is an
exception. -/
def copyConfig (heap : Ref → Property Kind V) (dest : Bean Kind V) : Option (Bean Kind V) → Option (Bean Kind V)
  | none => some dest
  | some orig =>
    let copied := lib.copyProperties heap dest orig
    if copied.threw then none else some copied.dest

/-- `reloadScripts` of a registered script, whose class has this `Config` by now. -/
def reloadScripts (script : String) (config : Option (ConfigClass Kind V)) (old : Option (Bean Kind V))
    (s : State Kind V Text) : State Kind V Text :=
  match config with
  | none => { s with
      scripts := Function.update s.scripts script (some none)
      reloads := Function.update s.reloads script (s.reloads script ++ [none]) }
  | some c =>
    let new := newBean script c c.initial s
    match copyConfig lib new.2.heap new.1 old with
    | some bean => { new.2 with
        scripts := Function.update s.scripts script (some (some bean))
        reloads := Function.update s.reloads script (s.reloads script ++ [some c]) }
    -- an `AlertErrorException`: the cache keeps its script
    | none => new.2

/-! ### Runs -/

/-- What happens: a new run of the application, an edit in a script's form, an assignment by the
script to its own configuration, and a reload. -/
inductive Action (Kind V : Type)
  | start (opened : Bool) (scripts : List (String × Option (ConfigClass Kind V)))
  | edit (script field : String) (v : V)
  | assign (script field : String) (v : V)
  | reload (script : String) (config : Option (ConfigClass Kind V))

/-- A property of a bean is set. -/
def setField (bean : Bean Kind V) (field : String) (v : V) (s : State Kind V Text) : Option (State Kind V Text) :=
  if field ∈ bean.getClass.fields then some (setValue lib (bean.refs field) v s) else none

def step (s : State Kind V Text) : Action Kind V → Option (State Kind V Text)
  | .start opened scripts => if (scripts.map Prod.fst).Nodup then some (start lib opened scripts s) else none
  | .edit script field v => (s.forms script).bind fun bean => setField lib bean field v s
  | .assign script field v => ((s.scripts script).bind id).bind fun bean => setField lib bean field v s
  | .reload script config => (s.scripts script).map fun old => reloadScripts lib script config old s

end

/-- Before the first run: no script, and any file. -/
def init (stored : String → Option Text) (heap : Ref → Property Kind V) : State Kind V Text :=
  ⟨false, stored, heap, 0, fun _ => none, fun _ => none, fun _ => []⟩

/-! ### What the objects keep -/

/-- What an object of the class is filled with from this text. -/
def restored (lib : Libraries Kind V Text) (text : Option Text) (c : ConfigClass Kind V) (n : String) :
    Property Kind V :=
  if n ∈ c.setters then (text.bind fun cache => lib.parseObject cache c).getD c.initial n else c.initial n

/-- The properties of a bean are among those made so far. -/
def Made (made : ℕ) (bean : Bean Kind V) : Prop := ∀ n, (bean.refs n).bean < made

/-- The form and the script have the same property object in this field. -/
def SameProperty (s : State Kind V Text) (script field : String) : Prop :=
  ∃ f b, s.forms script = some f ∧ s.scripts script = some (some b) ∧ field ∈ b.getClass.fields ∧
    b.refs field = f.refs field

/-- This version of the class has the field, with a setter. -/
def HasField (config : Option (ConfigClass Kind V)) (field : String) : Prop :=
  ∃ c, config = some c ∧ field ∈ c.fields ∧ field ∈ c.setters

/-- Every property is of the class its field declares, a restart would restore the form as it
is, and form and script share the fields no reload was without. -/
structure Inv (lib : Libraries Kind V Text) (s : State Kind V Text) : Prop where
  form_made : ∀ {d f}, s.forms d = some f → Made s.made f
  script_made : ∀ {d b}, s.scripts d = some (some b) → Made s.made b
  declared : ∀ {d f}, s.forms d = some f → ∀ n ∈ f.getClass.fields,
    (s.heap (f.refs n)).kind = (f.getClass.initial n).kind
  saved : s.opened = true → ∀ {d f}, s.forms d = some f → ∀ n ∈ f.getClass.fields, n ∈ f.getClass.setters →
    restored lib (s.stored d) f.getClass n = s.heap (f.refs n)
  linked : ∀ {d f}, s.forms d = some f → ∀ n ∈ f.getClass.fields,
    (SameProperty s d n ↔ ∀ config ∈ s.reloads d, HasField config n)

theorem Made.mono {made made' : ℕ} {bean : Bean Kind V} (h : Made made bean) (hle : made ≤ made') : Made made' bean :=
  fun n => lt_of_lt_of_le (h n) hle

theorem inv_init (lib : Libraries Kind V Text) (stored : String → Option Text) (heap : Ref → Property Kind V) :
    Inv lib (init stored heap) where
  form_made := nofun
  script_made := nofun
  declared := nofun
  saved := nofun
  linked := nofun

section

variable {lib : Libraries Kind V Text} {s : State Kind V Text}

/-! ### New objects -/

theorem heap_newBean {script : String} {c : ConfigClass Kind V} {values : String → Property Kind V} {r : Ref}
    (h : r.bean < s.made) : (newBean script c values s).2.heap r = s.heap r := by
  have hne : ¬(r.script = script ∧ r.bean = s.made) := fun hr => absurd hr.2 h.ne
  exact if_neg hne

theorem heap_newBean_self (script : String) (c : ConfigClass Kind V) (values : String → Property Kind V) (n : String) :
    (newBean script c values s).2.heap ((newBean script c values s).1.refs n) = values n := if_pos ⟨rfl, rfl⟩

/-- A new object is nobody's yet. -/
theorem Inv.newBean (h : Inv lib s) (script : String) (c : ConfigClass Kind V) (values : String → Property Kind V) :
    Inv lib (newBean script c values s).2 where
  form_made hf := (h.form_made hf).mono (Nat.le_succ _)
  script_made hb := (h.script_made hb).mono (Nat.le_succ _)
  declared hf n hn := by
    rw [heap_newBean (h.form_made hf n)]
    exact h.declared hf n hn
  saved ho _ _ hf n hn hset := by
    rw [heap_newBean (h.form_made hf n)]
    exact h.saved ho hf n hn hset
  linked hf n hn := h.linked hf n hn

/-- A bean of a script that has just been made and bound, for the script and its form. -/
theorem Inv.bound (h : Inv lib s) {script : String} {bean : Bean Kind V} (hnew : s.reloads script = [])
    (hmade : Made s.made bean)
    (hdeclared : ∀ n ∈ bean.getClass.fields, (s.heap (bean.refs n)).kind = (bean.getClass.initial n).kind)
    (hsaved : s.opened = true → ∀ n ∈ bean.getClass.fields, n ∈ bean.getClass.setters →
      restored lib (s.stored script) bean.getClass n = s.heap (bean.refs n)) :
    Inv lib { s with
      scripts := Function.update s.scripts script (some (some bean))
      forms := Function.update s.forms script (some bean) } := by
  have hforms : ∀ {d f}, Function.update s.forms script (some bean) d = some f →
      d = script ∧ f = bean ∨ d ≠ script ∧ s.forms d = some f := by
    intro d f hf
    by_cases hd : d = script
    · subst hd
      rw [Function.update_self] at hf
      exact .inl ⟨rfl, (Option.some.inj hf).symm⟩
    · rw [Function.update_of_ne hd] at hf
      exact .inr ⟨hd, hf⟩
  refine ⟨fun {d f} hf => ?_, fun {d b} hb => ?_, fun {d f} hf => ?_, fun ho {d f} hf => ?_, fun {d f} hf => ?_⟩
  · rcases hforms hf with ⟨rfl, rfl⟩ | ⟨-, hf⟩
    · exact hmade
    · exact h.form_made hf
  · by_cases hd : d = script
    · subst hd
      simp only [Function.update_self, Option.some.injEq] at hb
      exact hb ▸ hmade
    · simp only [Function.update_of_ne hd] at hb
      exact h.script_made hb
  · rcases hforms hf with ⟨rfl, rfl⟩ | ⟨-, hf⟩
    · exact hdeclared
    · exact h.declared hf
  · rcases hforms hf with ⟨rfl, rfl⟩ | ⟨-, hf⟩
    · exact hsaved ho
    · exact h.saved ho hf
  · rcases hforms hf with ⟨rfl, rfl⟩ | ⟨hd, hf⟩
    · intro n hn
      have hshared : SameProperty { s with
          scripts := Function.update s.scripts d (some (some f))
          forms := Function.update s.forms d (some f) } d n :=
        ⟨f, f, Function.update_self .., Function.update_self .., hn, rfl⟩
      simp [hshared, hnew]
    · intro n hn
      rw [← h.linked hf n hn]
      simp [SameProperty, Function.update_of_ne hd]

/-- The script of a description is replaced by one of this version. The fields the form still
shares are those the old one shared and the new version has with a setter. -/
theorem Inv.replaced (h : Inv lib s) {script : String} {config : Option (ConfigClass Kind V)}
    {new : Option (Bean Kind V)} (hclass : new.map Bean.getClass = config)
    (hmade : ∀ b, new = some b → Made s.made b)
    (hlinked : ∀ f, s.forms script = some f → ∀ n ∈ f.getClass.fields, ∀ b, new = some b → n ∈ b.getClass.fields →
      (b.refs n = f.refs n ↔ n ∈ b.getClass.setters ∧ SameProperty s script n)) :
    Inv lib { s with
      scripts := Function.update s.scripts script (some new)
      reloads := Function.update s.reloads script (s.reloads script ++ [config]) } := by
  refine ⟨h.form_made, fun {d b} hb => ?_, h.declared, h.saved, fun {d f} hf n hn => ?_⟩
  · by_cases hd : d = script
    · subst hd
      simp only [Function.update_self, Option.some.injEq] at hb
      exact hmade b hb
    · simp only [Function.update_of_ne hd] at hb
      exact h.script_made hb
  · by_cases hd : d = script
    · subst hd
      have hform : s.forms d = some f := hf
      dsimp only
      rw [Function.update_self, List.forall_mem_append, List.forall_mem_singleton, ← h.linked hform n hn]
      constructor
      · rintro ⟨f', b, hf', hb, hfield, hrefs⟩
        obtain rfl := Option.some.inj (hform.symm.trans hf')
        simp only [Function.update_self, Option.some.injEq] at hb
        subst hb
        obtain ⟨hset, hsame⟩ := (hlinked f hform n hn b rfl hfield).mp hrefs
        exact ⟨hsame, _, hclass.symm, hfield, hset⟩
      · rintro ⟨hsame, c, rfl, hfield, hset⟩
        obtain ⟨b, rfl, rfl⟩ := Option.map_eq_some_iff.mp hclass
        exact ⟨f, b, hform, Function.update_self .., hfield, (hlinked f hform n hn b rfl hfield).mpr ⟨hset, hsame⟩⟩
    · dsimp only
      rw [Function.update_of_ne hd, ← h.linked hf n hn]
      simp [SameProperty, Function.update_of_ne hd]

/-! ### A new run -/

theorem restored_kind (hlib : lib.Reliable) (text : Option Text) (c : ConfigClass Kind V) {n : String}
    (hn : n ∈ c.fields) : (restored lib text c n).kind = (c.initial n).kind := by
  unfold restored
  split
  · cases hparse : text.bind fun cache => lib.parseObject cache c with
    | none => rfl
    | some values =>
      obtain ⟨cache, -, hcache⟩ := Option.bind_eq_some_iff.mp hparse
      exact hlib.declared hcache n hn
  · rfl

/-- What reading the saved text does to a bean of the same script: it keeps its class, and has
the properties of the text, if there is any. -/
theorem deserialize_spec (hlib : lib.Reliable) (h : Inv lib s) (script : String) {bean : Bean Kind V}
    (hmade : Made s.made bean) (hinitial : ∀ n, s.heap (bean.refs n) = bean.getClass.initial n) :
    ∃ bean' s', deserialize lib script bean s = (bean', s') ∧ Inv lib s' ∧ Made s'.made bean' ∧
      bean'.getClass = bean.getClass ∧
      (∀ n ∈ bean.getClass.fields, s'.heap (bean'.refs n) = restored lib (get s script) bean.getClass n) ∧
      s'.opened = s.opened ∧ s'.stored = s.stored ∧ s'.scripts = s.scripts ∧ s'.forms = s.forms ∧
      s'.reloads = s.reloads := by
  unfold deserialize restored
  split
  · rename_i hnone
    rw [hnone]
    refine ⟨bean, s, rfl, h, hmade, rfl, fun n _ => ?_, rfl, rfl, rfl, rfl, rfl⟩
    rw [hinitial, Option.getD_none, ite_self]
  · rename_i values hvalues
    rw [hvalues]
    obtain ⟨text, -, hparse⟩ := Option.bind_eq_some_iff.mp hvalues
    -- both are of one class, so that nothing is in the way of copying
    have hthrew := hlib.not_threw (newBean script bean.getClass values s).2.heap bean
      (newBean script bean.getClass values s).1 fun n hn _ => by
        rw [heap_newBean_self]
        exact hlib.declared hparse n hn
    have hcopied := hlib.copied _ _ _ hthrew
    refine ⟨_, _, rfl, h.newBean script bean.getClass values, fun n => ?_, hlib.getClass _ _ _, fun n hn => ?_,
      rfl, rfl, rfl, rfl, rfl⟩
    · rw [hcopied]
      split
      · exact Nat.lt_succ_self _
      · exact hmade.mono (Nat.le_succ _) n
    · have hn' : n ∈ (newBean script bean.getClass values s).1.getClass.fields := hn
      rw [hcopied]
      by_cases hset : n ∈ bean.getClass.setters
      · rw [if_pos ⟨hn', hset⟩, if_pos hset]
        exact heap_newBean_self script bean.getClass values n
      · rw [if_neg fun hboth => hset hboth.2, if_neg hset, heap_newBean (hmade n), hinitial]

/-- What binding a script does. -/
theorem bindScript_spec (hlib : lib.Reliable) (h : Inv lib s) {script : String} (hnew : s.reloads script = [])
    (hform : s.forms script = none) (config : Option (ConfigClass Kind V)) :
    Inv lib (bindScript lib script config s) ∧
      (bindScript lib script config s).opened = s.opened ∧ (bindScript lib script config s).stored = s.stored ∧
      (bindScript lib script config s).reloads = s.reloads ∧
      (∀ d, d ≠ script → (bindScript lib script config s).forms d = s.forms d) ∧
      ((bindScript lib script config s).forms script).map Bean.getClass = config := by
  cases config with
  | none =>
    refine ⟨⟨h.form_made, fun {d b} hb => ?_, h.declared, h.saved, fun {d f} hf n hn => ?_⟩, rfl, rfl, rfl,
      fun _ _ => rfl, ?_⟩
    · by_cases hd : d = script
      · simp [bindScript, hd] at hb
      · simp only [bindScript, Function.update_of_ne hd] at hb
        exact h.script_made hb
    · have hd : d ≠ script := by
        rintro rfl
        exact Option.some_ne_none f (hf.symm.trans hform)
      refine Iff.trans ?_ (h.linked hf n hn)
      simp [SameProperty, bindScript, Function.update_of_ne hd]
    · simp [bindScript, hform]
  | some c =>
    have hinv := h.newBean script c c.initial
    have hnewMade : Made (newBean script c c.initial s).2.made (newBean script c c.initial s).1 :=
      fun n => Nat.lt_succ_self _
    obtain ⟨bean, s', hrun, hinv', hmade, hclass, hheap, hopened, hstored, hscripts, hforms, hreloads⟩ :=
      deserialize_spec hlib hinv script hnewMade fun n => heap_newBean_self script c c.initial n
    have heq : bindScript lib script (some c) s = { s' with
        scripts := Function.update s'.scripts script (some (some bean))
        forms := Function.update s'.forms script (some bean) } := by
      simp only [bindScript, hrun]
    have hclass' : bean.getClass = c := hclass
    rw [heq]
    refine ⟨hinv'.bound ?_ hmade ?_ ?_, hopened, hstored, hreloads, fun d hd => ?_, ?_⟩
    · rw [hreloads]
      exact hnew
    · intro n hn
      rw [hclass'] at hn ⊢
      rw [hheap n hn]
      exact restored_kind hlib _ c hn
    · intro ho n hn _
      rw [hclass'] at hn ⊢
      rw [hheap n hn, get, if_pos (hopened.symm.trans ho), hstored]
      rfl
    · dsimp only
      rw [Function.update_of_ne hd, hforms]
      rfl
    · dsimp only
      rw [Function.update_self, Option.map_some, hclass']

/-- Binding the scripts of a list, none of which is bound yet. -/
theorem foldl_bindScript (hlib : lib.Reliable) : ∀ (scripts : List (String × Option (ConfigClass Kind V)))
    {s : State Kind V Text}, Inv lib s → (∀ d, s.reloads d = []) → (scripts.map Prod.fst).Nodup →
      (∀ d ∈ scripts.map Prod.fst, s.forms d = none) →
      let s' := scripts.foldl (fun s script => bindScript lib script.1 script.2 s) s
      Inv lib s' ∧ s'.opened = s.opened ∧ s'.stored = s.stored ∧
        (∀ d, d ∉ scripts.map Prod.fst → s'.forms d = s.forms d) ∧
        ∀ script ∈ scripts, (s'.forms script.1).map Bean.getClass = script.2
  | [], s, h, _, _, _ => ⟨h, rfl, rfl, fun _ _ => rfl, nofun⟩
  | (d, config) :: scripts, s, h, hreloads, hnodup, hforms => by
    rw [List.map_cons, List.nodup_cons] at hnodup
    obtain ⟨hinv, hopened, hstored, hreloads', hother, hself⟩ :=
      bindScript_spec hlib h (hreloads d) (hforms d List.mem_cons_self) config
    obtain ⟨hinv', hopened', hstored', hother', hself'⟩ := foldl_bindScript hlib scripts hinv
      (fun d' => by rw [hreloads', hreloads]) hnodup.2 fun d' hd' => by
        rw [hother d' fun heq => hnodup.1 (heq ▸ hd')]
        exact hforms d' (List.mem_cons_of_mem _ hd')
    refine ⟨hinv', hopened'.trans hopened, hstored'.trans hstored, fun d' hd' => ?_, fun script hscript => ?_⟩
    · rw [List.map_cons, List.mem_cons, not_or] at hd'
      exact (hother' d' hd'.2).trans (hother d' hd'.1)
    · rcases List.mem_cons.mp hscript with rfl | hscript
      · exact (congrArg (Option.map Bean.getClass) (hother' d hnodup.1)).trans hself
      · exact hself' script hscript

/-- A new run forgets the objects of the last one, not the file. -/
theorem start_spec (hlib : lib.Reliable) (opened : Bool) {scripts : List (String × Option (ConfigClass Kind V))}
    (hnodup : (scripts.map Prod.fst).Nodup) :
    Inv lib (start lib opened scripts s) ∧ (start lib opened scripts s).opened = opened ∧
      (start lib opened scripts s).stored = s.stored ∧
      ∀ script ∈ scripts, ((start lib opened scripts s).forms script.1).map Bean.getClass = script.2 := by
  have hinv : Inv lib { s with
      opened := opened, scripts := fun _ => none, forms := fun _ => none, reloads := fun _ => [] } :=
    ⟨nofun, nofun, nofun, nofun, nofun⟩
  obtain ⟨hinv', hopened, hstored, -, hself⟩ :=
    foldl_bindScript hlib scripts hinv (fun _ => rfl) hnodup fun _ _ => rfl
  exact ⟨hinv', hopened, hstored, hself⟩

/-! ### Edits -/

theorem save_of_form {d : String} {f : Bean Kind V} {r : Ref} (hf : s.forms d = some f) (ho : s.opened = true) :
    save lib s r d = if hears f r then lib.serialize (values s f) else s.stored d := by
  simp [save, hf, ho]

section

variable [DecidableEq V]

/-- A change of any property. The forms that hear it are saved as they are then. -/
theorem Inv.setValue (hlib : lib.Reliable) (h : Inv lib s) (r : Ref) (v : V) :
    Inv lib (setValue lib r v s) := by
  unfold ScriptConfig.setValue
  split
  · exact h
  · have hkind : ∀ r', (Function.update s.heap r { s.heap r with value := v } r').kind = (s.heap r').kind := by
      intro r'
      by_cases hr : r' = r
      · simp [hr]
      · simp [hr]
    have hdeclared : ∀ {d f}, s.forms d = some f → ∀ n ∈ f.getClass.fields,
        (Function.update s.heap r { s.heap r with value := v } (f.refs n)).kind = (f.getClass.initial n).kind := by
      intro d f hf n hn
      rw [hkind]
      exact h.declared hf n hn
    refine ⟨h.form_made, h.script_made, hdeclared, fun ho {d f} hf n hn hset => ?_, fun hf n hn => h.linked hf n hn⟩
    dsimp only at ho hf ⊢
    rw [save_of_form (s := { s with heap := Function.update s.heap r { s.heap r with value := v } }) hf ho]
    by_cases hhears : hears f r = true
    · rw [if_pos hhears]
      obtain ⟨text, read, hserialize, hparse, hread⟩ := hlib.roundTrip f.getClass
        (fun n => Function.update s.heap r { s.heap r with value := v } (f.refs n)) (hdeclared hf)
      unfold values restored
      dsimp only
      rw [if_pos hset, hserialize, Option.bind_some, hparse]
      exact hread n hn hset
    · rw [if_neg hhears, h.saved ho hf n hn hset, Function.update_of_ne]
      rintro rfl
      apply hhears
      unfold hears
      exact decide_eq_true (List.mem_map_of_mem hn)

theorem Inv.setField (hlib : lib.Reliable) (h : Inv lib s) {bean : Bean Kind V} {field : String} {v : V}
    {s' : State Kind V Text} (hs : setField lib bean field v s = some s') : Inv lib s' := by
  unfold ScriptConfig.setField at hs
  split at hs
  · exact Option.some.inj hs ▸ h.setValue hlib _ v
  · cases hs

end

/-! ### Reloads -/

theorem sameProperty_iff {d n : String} {f b : Bean Kind V} (hf : s.forms d = some f)
    (hb : s.scripts d = some (some b)) :
    SameProperty s d n ↔ n ∈ b.getClass.fields ∧ b.refs n = f.refs n := by
  constructor
  · rintro ⟨f', b', hf', hb', h⟩
    obtain rfl := Option.some.inj (hf.symm.trans hf')
    obtain rfl := Option.some.inj (Option.some.inj (hb.symm.trans hb'))
    exact h
  · intro h
    exact ⟨f, b, hf, hb, h⟩

/-- A new object's properties are none of the form's. -/
theorem Inv.newBean_ne (h : Inv lib s) {script : String} {f : Bean Kind V} (hf : s.forms script = some f)
    (c : ConfigClass Kind V) (values : String → Property Kind V) (n : String) :
    (ScriptConfig.newBean script c values s).1.refs n ≠ f.refs n := by
  intro heq
  have hlt := (h.form_made hf n)
  rw [← heq] at hlt
  exact lt_irrefl _ hlt

/-- The configuration of a reloaded script: each field is the old one's, if that had it and the
new one has a setter for it. -/
theorem of_copied (hlib : lib.Reliable) {heap : Ref → Property Kind V} {dest bean : Bean Kind V}
    {old : Option (Bean Kind V)} (h : copyConfig lib heap dest old = some bean) :
    bean.getClass = dest.getClass ∧ ∀ n,
      (∃ orig, old = some orig ∧ n ∈ orig.getClass.fields ∧ n ∈ dest.getClass.setters ∧ bean.refs n = orig.refs n) ∨
      (∀ orig, old = some orig → n ∈ orig.getClass.fields → n ∉ dest.getClass.setters) ∧ bean.refs n = dest.refs n := by
  cases old with
  | none =>
    obtain rfl := Option.some.inj h
    exact ⟨rfl, fun n => .inr ⟨nofun, rfl⟩⟩
  | some orig =>
    simp only [copyConfig, Option.ite_none_left_eq_some] at h
    obtain ⟨hthrew, hdest⟩ := h
    obtain rfl := Option.some.inj hdest
    refine ⟨hlib.getClass _ _ _, fun n => ?_⟩
    have hrefs := hlib.copied heap dest orig (Bool.eq_false_of_not_eq_true hthrew) n
    by_cases hn : n ∈ orig.getClass.fields ∧ n ∈ dest.getClass.setters
    · exact .inl ⟨orig, rfl, hn.1, hn.2, hrefs.trans (if_pos hn)⟩
    · refine .inr ⟨fun orig' horig hfield hset => hn ?_, hrefs.trans (if_neg hn)⟩
      obtain rfl := Option.some.inj horig
      exact ⟨hfield, hset⟩

theorem Inv.reloadScripts (hlib : lib.Reliable) (h : Inv lib s) {script : String} {old : Option (Bean Kind V)}
    (hold : s.scripts script = some old) (config : Option (ConfigClass Kind V)) :
    Inv lib (reloadScripts lib script config old s) := by
  cases config with
  | none => exact h.replaced rfl nofun fun _ _ _ _ _ => nofun
  | some c =>
    have hinv := h.newBean script c c.initial
    unfold ScriptConfig.reloadScripts
    dsimp only
    split
    · rename_i bean hbean
      obtain ⟨hclass, hrefs⟩ := of_copied hlib hbean
      refine hinv.replaced (congrArg some hclass) (fun b hb n => ?_) fun f hf n _ b hb _ => ?_
      · obtain rfl := Option.some.inj hb
        rcases hrefs n with ⟨orig, rfl, -, -, heq⟩ | ⟨-, heq⟩
        · rw [heq]
          exact hinv.script_made hold n
        · rw [heq]
          exact Nat.lt_succ_self _
      · obtain rfl := Option.some.inj hb
        rw [hclass]
        rcases hrefs n with ⟨orig, rfl, hn, hset, heq⟩ | ⟨hnone, heq⟩
        · rw [heq, sameProperty_iff hf hold]
          exact ⟨fun hsame => ⟨hset, hn, hsame⟩, fun hsame => hsame.2.2⟩
        · -- the field is new or cannot be set, and its property is new
          rw [heq]
          refine ⟨fun hsame => absurd hsame (h.newBean_ne hf c c.initial n), ?_⟩
          rintro ⟨hset, -, orig, -, horig, hn, -⟩
          exact absurd hset (hnone orig (Option.some.inj (hold.symm.trans horig)) hn)
    · exact hinv

/-! ### Runs -/

section

variable [DecidableEq V]

theorem inv_step (hlib : lib.Reliable) {s' : State Kind V Text} {a : Action Kind V} (h : Inv lib s)
    (hs : step lib s a = some s') : Inv lib s' := by
  unfold step at hs
  split at hs
  · split at hs
    · rename_i opened scripts hnodup
      obtain rfl := Option.some.inj hs
      exact (start_spec hlib opened hnodup).1
    · cases hs
  · obtain ⟨bean, -, hs⟩ := Option.bind_eq_some_iff.mp hs
    exact h.setField hlib hs
  · obtain ⟨bean, -, hs⟩ := Option.bind_eq_some_iff.mp hs
    exact h.setField hlib hs
  · obtain ⟨old, hold, rfl⟩ := Option.map_eq_some_iff.mp hs
    exact h.reloadScripts hlib hold _

theorem inv_of_reach (hlib : lib.Reliable) {stored : String → Option Text} {heap : Ref → Property Kind V}
    (h : Reach (step lib) anyStep (init stored heap) s) : Inv lib s :=
  h.invariant (inv_init lib stored heap) fun _ _ _ hinv _ hs => inv_step hlib hinv hs

/-- If the file can be opened in this run and the next, every script that is found again, with the
same class, starts with the settings its form shows now in the fields that have setters: whatever
was edited, assigned by scripts and reloaded, in this run and the ones before. -/
theorem settings_kept (hlib : lib.Reliable) {stored : String → Option Text} {heap : Ref → Property Kind V}
    (h : Reach (step lib) anyStep (init stored heap) s) (hopened : s.opened = true) {script : String}
    {form : Bean Kind V} (hform : s.forms script = some form) {scripts : List (String × Option (ConfigClass Kind V))}
    (hnodup : (scripts.map Prod.fst).Nodup) (hfound : (script, some form.getClass) ∈ scripts) :
    ∃ form', (start lib true scripts s).forms script = some form' ∧ form'.getClass = form.getClass ∧
      ∀ n ∈ form.getClass.fields, n ∈ form.getClass.setters →
        (start lib true scripts s).heap (form'.refs n) = s.heap (form.refs n) := by
  obtain ⟨hinv, hopened', hstored, hforms⟩ := start_spec hlib true hnodup (s := s)
  obtain ⟨form', hform', hclass⟩ := Option.map_eq_some_iff.mp (hforms _ hfound)
  refine ⟨form', hform', hclass, fun n hn hset => ?_⟩
  calc (start lib true scripts s).heap (form'.refs n)
      = restored lib (s.stored script) form.getClass n := by
        rw [← hinv.saved hopened' hform' n (hclass ▸ hn) (hclass ▸ hset), hstored, hclass]
    _ = s.heap (form.refs n) := (inv_of_reach hlib h).saved hopened hform n hn hset

theorem heap_setValue (r : Ref) (v : V) (r' : Ref) :
    (setValue lib r v s).heap r' = if r' = r then { s.heap r with value := v } else s.heap r' := by
  unfold setValue
  split
  · rename_i hv
    split
    · rename_i hr
      rw [hr, ← hv]
    · rfl
  · exact Function.update_apply ..

end

end

/-! ### A counter -/

section

variable [DecidableEq Kind]

/-- The list of values itself for the text, from which an object takes what its class declares. -/
def plain : Libraries Kind V (List (String × Property Kind V)) where
  serialize := some
  parseObject text c := some fun n =>
    ((text.find? fun e => e.1 = n ∧ e.2.kind = (c.initial n).kind).map Prod.snd).getD (c.initial n)
  copyProperties heap dest orig :=
    if ∀ n ∈ orig.getClass.fields, n ∈ dest.getClass.setters →
        (heap (orig.refs n)).kind = (dest.getClass.initial n).kind then
      ⟨{ dest with refs := fun n =>
        if n ∈ orig.getClass.fields ∧ n ∈ dest.getClass.setters then orig.refs n else dest.refs n }, false⟩
    else ⟨dest, true⟩

theorem reliable_plain : (plain : Libraries Kind V (List (String × Property Kind V))).Reliable where
  declared {text c values} h n _ := by
    obtain rfl := Option.some.inj h
    cases hfind : text.find? fun e => e.1 = n ∧ e.2.kind = (c.initial n).kind with
    | none =>
      dsimp only
      rw [hfind, Option.map_none, Option.getD_none]
    | some e =>
      have he := List.find?_some hfind
      dsimp only
      rw [hfind]
      exact (of_decide_eq_true he).2
  roundTrip c values hkind := by
    refine ⟨_, _, rfl, rfl, fun n hn _ => ?_⟩
    cases hfind : (c.fields.map fun n => (n, values n)).find? fun e => e.1 = n ∧ e.2.kind = (c.initial n).kind with
    | none =>
      have hnone := List.find?_eq_none.mp hfind (n, values n) (List.mem_map_of_mem hn)
      simp [hkind n hn] at hnone
    | some e =>
      obtain ⟨n', -, rfl⟩ := List.mem_map.mp (List.mem_of_find?_eq_some hfind)
      have he := List.find?_some hfind
      exact congrArg values (of_decide_eq_true he).1
  getClass heap dest orig := by
    dsimp only [plain]
    split <;> rfl
  copied heap dest orig hthrew n := by
    dsimp only [plain] at hthrew ⊢
    split at hthrew
    · rename_i hkinds
      rw [if_pos hkinds]
    · cases hthrew
  not_threw heap dest orig hkinds := by
    dsimp only [plain]
    rw [if_pos hkinds]

end

/-- A configuration of one counter, and a text that cannot be set. -/
def counter : ConfigClass Unit ℕ := ⟨["amiiboCount", "welcome"], ["amiiboCount"], fun _ => ⟨(), 0⟩⟩

/-- A script has counted to 3 by the end of a run. -/
theorem settings_kept_counter : ∃ (s : State Unit ℕ _) (form : Bean Unit ℕ),
    Reach (step plain) anyStep (init (fun _ => none) fun _ => ⟨(), 0⟩) s ∧ s.forms "Amiibo" = some form ∧
      (s.heap (form.refs "amiiboCount")).value = 3 ∧ "amiiboCount" ∈ form.getClass.setters ∧
      ∃ form', (start plain true [("Amiibo", some form.getClass)] s).forms "Amiibo" = some form' ∧
        form'.getClass = form.getClass ∧ ∀ n ∈ form.getClass.fields, n ∈ form.getClass.setters →
          (start plain true [("Amiibo", some form.getClass)] s).heap (form'.refs n) = s.heap (form.refs n) := by
  obtain ⟨s, form, hreach, hform, hopened, hvalue, hset⟩ : ∃ (s : State Unit ℕ _) (form : Bean Unit ℕ),
      Reach (step plain) anyStep (init (fun _ => none) fun _ => ⟨(), 0⟩) s ∧ s.forms "Amiibo" = some form ∧
        s.opened = true ∧ (s.heap (form.refs "amiiboCount")).value = 3 ∧ "amiiboCount" ∈ form.getClass.setters :=
    ⟨_, _, .step (.assign "Amiibo" "amiiboCount" 3) (.step (.start true [("Amiibo", some counter)]) .start trivial rfl)
      trivial rfl, rfl, rfl, rfl, List.mem_cons_self⟩
  exact ⟨s, form, hreach, hform, hvalue, hset,
    settings_kept reliable_plain hreach hopened hform (by simp) List.mem_cons_self⟩

end ScriptConfig
end PGCon

/-
# The engines that read texts

`TesseractOCR` keeps one Tesseract engine for each language and, in a cache, one for each
configuration that asks for more than a language. An engine is an object with a state: a
picture is set and then its text is read, so two threads that use one engine could read
each other's pictures. `getText` is `synchronized`.

Threads call `detect` in any order. `own_text`: each gets what its own configuration reads
of its own picture, or the empty text where the engine could not be made or the reading
threw. `shared_iff`: two calls use the same engine exactly if their configurations are
equal, or ask for one language and nothing else.

What Tesseract reads is taken to be a function of how the engine was set up and of the
picture it was given last; nothing of earlier pictures is kept. The cache is Caffeine's: its
`get` makes the engine of a key at most once, other threads waiting for it, and keeps none
where making it has thrown or come to `null`.
-/
import PGCon.Machine

namespace PGCon
namespace OcrEngines

open Machine

/-! ### Configurations and engines -/

/-- `OCR.Method`. -/
inductive Method
  | NMU
  | ENG
  | CHS
  deriving DecidableEq, Repr

/-- `OCR.ApiConfig`. -/
structure ApiConfig where
  method : Method
  whitelist : Option String
  blacklist : Option String
  pageSegMode : Option ℤ
  ocrEngineMode : Option ℤ
  deriving DecidableEq, Repr

/-- `Strings.isNullOrEmpty`. -/
def isNullOrEmpty (s : Option String) : Bool := s.getD "" = ""

/-- `tesseract.OEM_DEFAULT`. -/
def DEFAULT_OCR_ENGINE_MODE : ℤ := 3
/-- `tesseract.PSM_RAW_LINE`. -/
def DEFAULT_PAGE_SEG_MODE : ℤ := 13

/-- A call that sets an engine up. The data and the language are those of the method. -/
inductive Setting
  | setPageSegMode (mode : ℤ)
  | init (method : Method) (mode : ℤ)
  | setVariable (name value : String)
  deriving DecidableEq, Repr

/-- `SetVariable`, for a list of characters that is not empty. -/
def setList (name : String) (value : Option String) : List Setting :=
  if isNullOrEmpty value then [] else [.setVariable name (value.getD "")]

/-- The calls `createTessBaseAPI` makes. -/
def settings (apiConfig : ApiConfig) : List Setting :=
  [.setPageSegMode (apiConfig.pageSegMode.getD DEFAULT_PAGE_SEG_MODE),
    .init apiConfig.method (apiConfig.ocrEngineMode.getD DEFAULT_OCR_ENGINE_MODE)] ++
  setList "tessedit_char_whitelist" apiConfig.whitelist ++ setList "tessedit_char_blacklist" apiConfig.blacklist

def isDefaultApi (apiConfig : ApiConfig) : Bool :=
  isNullOrEmpty apiConfig.whitelist && isNullOrEmpty apiConfig.blacklist && apiConfig.ocrEngineMode.isNone &&
    apiConfig.pageSegMode.isNone

/-- `ApiConfig.builder().method(method).build()`. -/
def ofMethod (method : Method) : ApiConfig := ⟨method, none, none, none, none⟩

/-- A `TessBaseAPI`: how it was set up, and the picture it was given last. -/
structure TessBaseAPI (I : Type) where
  settings : List Setting
  image : Option I

/-- What Tesseract reads: the text and the confidence, from the set-up and the picture. -/
abbrev Tesseract (I : Type) := List Setting → Option I → String × ℤ

/-! ### Threads in `detect` -/

/-- Where a thread is. `null` is `none`; an engine is its place in the list of all made. -/
inductive PC (I : Type)
  | idle
  | called (apiConfig : ApiConfig)
  | got (apiConfig : ApiConfig) (tessBaseAPI : Option ℕ)
  /-- in `getText`, after `SetImage` -/
  | reading (apiConfig : ApiConfig) (tessBaseAPI : ℕ) (image : I)
  deriving DecidableEq

/-- A call that returned. -/
structure Detection (T I : Type) where
  thread : T
  apiConfig : ApiConfig
  image : I
  tessBaseAPI : Option ℕ
  threw : Bool
  result : String × ℤ

structure State (T I : Type) where
  engines : List (TessBaseAPI I)
  defaultApiMap : Method → Option ℕ
  specialApiMap : ApiConfig → Option ℕ
  /-- the thread in `getText` -/
  monitor : Option T
  thread : T → PC I
  detections : List (Detection T I)

inductive Action (T I : Type)
  | detect (t : T) (apiConfig : ApiConfig)
  /-- `getApi`; `initialized` says whether `Init` returns 0, should an engine be made -/
  | getApi (t : T) (initialized : Bool)
  /-- an exception before `getText` -/
  | fail (t : T)
  /-- the picture is ready, and the thread comes into `getText` -/
  | setImage (t : T) (image : I)
  /-- the text is read or an exception caught -/
  | getUTF8Text (t : T) (threw : Bool)

variable {T I : Type}

/-- `createTessBaseAPI`. -/
def State.createTessBaseAPI (apiConfig : ApiConfig) (initialized : Bool) (s : State T I) : Option ℕ × State T I :=
  if initialized then (some s.engines.length, { s with engines := s.engines ++ [⟨settings apiConfig, none⟩] })
  else (none, s)

/-- One turn of the constructor's loop. -/
def State.addDefault (initialized : Method → Bool) (s : State T I) (method : Method) : State T I :=
  let (api, s) := s.createTessBaseAPI (ofMethod method) (initialized method)
  { s with defaultApiMap := Function.update s.defaultApiMap method api }

/-- `TesseractOCR(...)`. -/
def State.init (initialized : Method → Bool) : State T I :=
  [Method.NMU, .ENG, .CHS].foldl (State.addDefault initialized)
    ⟨[], fun _ => none, fun _ => none, none, fun _ => .idle, []⟩

/-- The engine a configuration has so far. -/
def State.find (s : State T I) (apiConfig : ApiConfig) : Option ℕ :=
  if isDefaultApi apiConfig then s.defaultApiMap apiConfig.method else s.specialApiMap apiConfig

/-- `getApi`: the cache makes an engine where it has none, and does not keep a `null`. -/
def State.getApi (apiConfig : ApiConfig) (initialized : Bool) (s : State T I) : Option ℕ × State T I :=
  if isDefaultApi apiConfig then (s.defaultApiMap apiConfig.method, s)
  else
    match s.specialApiMap apiConfig with
    | some api => (some api, s)
    | none =>
      let (api, s) := s.createTessBaseAPI apiConfig initialized
      (api, { s with specialApiMap := Function.update s.specialApiMap apiConfig api })

section

variable [DecidableEq T] (tesseract : Tesseract I)

def step (s : State T I) : Action T I → Option (State T I)
  | .detect t apiConfig =>
    match s.thread t with
    | .idle => some { s with thread := Function.update s.thread t (.called apiConfig) }
    | _ => none
  | .getApi t initialized =>
    match s.thread t with
    | .called apiConfig =>
      let (api, s) := s.getApi apiConfig initialized
      some { s with thread := Function.update s.thread t (.got apiConfig api) }
    | _ => none
  | .fail t =>
    match s.thread t with
    | .got _ _ => some { s with thread := Function.update s.thread t .idle }
    | _ => none
  | .setImage t image =>
    match s.thread t, s.monitor with
    | .got apiConfig (some api), none => some { s with
        engines := s.engines.modify api fun engine => { engine with image := some image }
        monitor := some t
        thread := Function.update s.thread t (.reading apiConfig api image) }
    -- the `NullPointerException` is caught
    | .got apiConfig none, none => some { s with
        thread := Function.update s.thread t .idle
        detections := s.detections ++ [⟨t, apiConfig, image, none, true, ("", 0)⟩] }
    | _, _ => none
  | .getUTF8Text t threw =>
    match s.thread t with
    | .reading apiConfig api image =>
      (s.engines[api]?).map fun engine => { s with
        monitor := none
        thread := Function.update s.thread t .idle
        detections := s.detections ++ [⟨t, apiConfig, image, some api, threw,
          if threw then ("", 0) else tesseract engine.settings engine.image⟩] }
    | _ => none

end

/-! ### Which configurations share an engine -/

/-- A configuration without what makes no difference. -/
def key (apiConfig : ApiConfig) : ApiConfig :=
  if isDefaultApi apiConfig then ofMethod apiConfig.method else apiConfig

theorem isDefaultApi_ofMethod (method : Method) : isDefaultApi (ofMethod method) = true := rfl

theorem key_of_default {apiConfig : ApiConfig} (h : isDefaultApi apiConfig = true) :
    key apiConfig = ofMethod apiConfig.method := if_pos h

theorem key_of_special {apiConfig : ApiConfig} (h : isDefaultApi apiConfig = false) : key apiConfig = apiConfig := by
  rw [key, h]
  rfl

theorem isDefaultApi_key (apiConfig : ApiConfig) : isDefaultApi (key apiConfig) = isDefaultApi apiConfig := by
  cases h : isDefaultApi apiConfig with
  | true =>
    rw [key_of_default h]
    rfl
  | false => rw [key_of_special h, h]

theorem settings_key (apiConfig : ApiConfig) : settings (key apiConfig) = settings apiConfig := by
  cases h : isDefaultApi apiConfig with
  | true =>
    rw [key_of_default h]
    simp only [isDefaultApi, Bool.and_eq_true, Option.isNone_iff_eq_none] at h
    obtain ⟨⟨⟨hwhite, hblack⟩, hengine⟩, hpage⟩ := h
    simp only [settings, setList, ofMethod, hwhite, hblack, hengine, hpage]
    rfl
  | false => rw [key_of_special h]

/-- A special configuration has its key to itself. -/
theorem eq_of_key {a b : ApiConfig} (h : isDefaultApi a = false) (hkey : key b = key a) : b = a := by
  have hb : isDefaultApi b = false := by rw [← isDefaultApi_key b, hkey, isDefaultApi_key, h]
  rwa [key_of_special h, key_of_special hb] at hkey

theorem key_eq_iff {a b : ApiConfig} : key a = key b ↔
    a = b ∨ isDefaultApi a = true ∧ isDefaultApi b = true ∧ a.method = b.method := by
  constructor
  · intro h
    cases hb : isDefaultApi b with
    | true =>
      have ha : isDefaultApi a = true := by rw [← isDefaultApi_key a, h, isDefaultApi_key, hb]
      rw [key_of_default ha, key_of_default hb] at h
      exact .inr ⟨ha, rfl, (ApiConfig.mk.inj h).1⟩
    | false => exact .inl (eq_of_key hb h)
  · rintro (rfl | ⟨ha, hb, hmethod⟩)
    · rfl
    · rw [key_of_default ha, key_of_default hb, hmethod]

/-- Only the key is looked at. -/
theorem find_key (s : State T I) {a b : ApiConfig} (h : key a = key b) : s.find a = s.find b := by
  rcases key_eq_iff.mp h with rfl | ⟨ha, hb, hmethod⟩
  · rfl
  · rw [State.find, State.find, if_pos ha, if_pos hb, hmethod]

/-! ### What every step keeps -/

/-- What a call should return. -/
def Own (tesseract : Tesseract I) (d : Detection T I) : Prop :=
  d.result = if d.tessBaseAPI.isSome ∧ d.threw = false then tesseract (settings d.apiConfig) (some d.image) else ("", 0)

/-- Every engine is set up as the configurations it is for ask, and is for one key only. A
thread has the engine of its configuration, and the one in `getText` its own picture there. -/
structure Inv (tesseract : Tesseract I) (s : State T I) : Prop where
  table : ∀ c api, s.find c = some api → ∃ engine, s.engines[api]? = some engine ∧ engine.settings = settings c
  apart : ∀ a b api, s.find a = some api → s.find b = some api → key a = key b
  got : ∀ t c api, s.thread t = .got c (some api) → s.find c = some api
  reading : ∀ t c api image, s.thread t = .reading c api image →
    s.find c = some api ∧ s.monitor = some t ∧ ∃ engine, s.engines[api]? = some engine ∧ engine.image = some image
  own : ∀ d ∈ s.detections, Own tesseract d
  used : ∀ d ∈ s.detections, ∀ api, d.tessBaseAPI = some api → s.find d.apiConfig = some api

variable {tesseract : Tesseract I} {s s' : State T I}

/-- An engine is made for a key that had none. -/
theorem Inv.put (h : Inv tesseract s) {c : ApiConfig} (hnone : s.find c = none)
    (hengines : s'.engines = s.engines ++ [⟨settings c, none⟩])
    (hfind : ∀ a, s'.find a = if key a = key c then some s.engines.length else s.find a)
    (hmonitor : s'.monitor = s.monitor) (hthread : s'.thread = s.thread) (hdone : s'.detections = s.detections) :
    Inv tesseract s' := by
  have hkept : ∀ a api, s.find a = some api → s'.find a = some api := by
    intro a api ha
    rw [hfind, if_neg, ha]
    intro hkey
    rw [find_key s hkey, hnone] at ha
    cases ha
  have holds : ∀ (api : ℕ) (engine : TessBaseAPI I), s.engines[api]? = some engine → s'.engines[api]? = some engine := by
    intro api engine he
    obtain ⟨hlt, -⟩ := List.getElem?_eq_some_iff.mp he
    rw [hengines, List.getElem?_append_left hlt, he]
  -- a key that had an engine before does not get the new one
  have hfresh : ∀ a, s.find a ≠ some s.engines.length := by
    intro a ha
    obtain ⟨engine, he, -⟩ := h.table a _ ha
    simp at he
  refine ⟨fun a api ha => ?_, fun a b api ha hb => ?_, fun t a api ht => ?_, fun t a api image ht => ?_, ?_,
    fun d hd api hapi => ?_⟩
  · rw [hfind] at ha
    split at ha
    · rename_i hkey
      obtain rfl := Option.some.inj ha
      refine ⟨⟨settings c, none⟩, by rw [hengines]; simp, ?_⟩
      rw [← settings_key a, hkey, settings_key]
    · obtain ⟨engine, he, hset⟩ := h.table a api ha
      exact ⟨engine, holds api engine he, hset⟩
  · rw [hfind] at ha hb
    split at ha <;> split at hb
    · rename_i hka hkb
      rw [hka, hkb]
    · obtain rfl := Option.some.inj ha
      exact absurd hb (hfresh b)
    · obtain rfl := Option.some.inj hb
      exact absurd ha (hfresh a)
    · exact h.apart a b api ha hb
  · rw [hthread] at ht
    exact hkept a api (h.got t a api ht)
  · rw [hthread] at ht
    obtain ⟨hapi, hmon, engine, he, himage⟩ := h.reading t a api image ht
    exact ⟨hkept a api hapi, hmonitor.trans hmon, engine, holds api engine he, himage⟩
  · rw [hdone]
    exact h.own
  · rw [hdone] at hd
    exact hkept _ api (h.used d hd api hapi)

/-- What looks the same is as good. -/
theorem Inv.same (h : Inv tesseract s) (hengines : s'.engines = s.engines) (hfind : s'.find = s.find)
    (hmonitor : s'.monitor = s.monitor) (hthread : s'.thread = s.thread) (hdone : s'.detections = s.detections) :
    Inv tesseract s' := by
  obtain ⟨htable, hapart, hgot, hreading, hown, hused⟩ := h
  refine ⟨?_, ?_, ?_, ?_, ?_, ?_⟩
  · rw [hfind, hengines]
    exact htable
  · rw [hfind]
    exact hapart
  · rw [hfind, hthread]
    exact hgot
  · rw [hfind, hengines, hthread, hmonitor]
    exact hreading
  · rw [hdone]
    exact hown
  · rw [hfind, hdone]
    exact hused

theorem find_updateSpecial {c : ApiConfig} (hc : isDefaultApi c = false) (api : Option ℕ) (a : ApiConfig)
    (engines : List (TessBaseAPI I)) :
    State.find { s with engines := engines, specialApiMap := Function.update s.specialApiMap c api } a =
      if key a = key c then api else s.find a := by
  by_cases hkey : key a = key c
  · obtain rfl := eq_of_key hc hkey
    rw [if_pos rfl, State.find, hc]
    exact Function.update_self _ _ _
  · rw [if_neg hkey, State.find, State.find]
    have hne : a ≠ c := fun heq => hkey (by rw [heq])
    dsimp only
    rw [Function.update_of_ne hne]

theorem find_updateDefault (m : Method) (api : Option ℕ) (a : ApiConfig) (engines : List (TessBaseAPI I)) :
    State.find { s with engines := engines, defaultApiMap := Function.update s.defaultApiMap m api } a =
      if key a = key (ofMethod m) then api else s.find a := by
  rw [show key (ofMethod m) = ofMethod m from rfl, State.find, State.find]
  cases ha : isDefaultApi a with
  | true =>
    rw [key_of_default ha]
    by_cases hm : a.method = m
    · subst hm
      simp [ofMethod]
    · have hne : ofMethod a.method ≠ ofMethod m := fun heq => hm (ApiConfig.mk.inj heq).1
      simp [hne, Function.update_of_ne hm]
  | false =>
    have hne : key a ≠ ofMethod m := by
      intro heq
      have := isDefaultApi_key a
      rw [heq, isDefaultApi_ofMethod, ha] at this
      cases this
    rw [if_neg hne]
    rfl

theorem inv_empty : Inv tesseract (⟨[], fun _ => none, fun _ => none, none, fun _ => .idle, []⟩ : State T I) := by
  refine ⟨?_, ?_, ?_, ?_, ?_, ?_⟩ <;> simp [State.find]

theorem Inv.addDefault (h : Inv tesseract s) (initialized : Method → Bool) {m : Method}
    (hm : s.defaultApiMap m = none) : Inv tesseract (s.addDefault initialized m) := by
  have hnone : s.find (ofMethod m) = none := hm
  unfold State.addDefault State.createTessBaseAPI
  cases initialized m with
  | true => exact h.put hnone rfl (fun a => find_updateDefault m _ a _) rfl rfl rfl
  | false =>
    refine h.same rfl ?_ rfl rfl rfl
    dsimp only
    rw [if_neg (by decide), ← hm, Function.update_eq_self]

theorem defaultApiMap_addDefault (initialized : Method → Bool) {m m' : Method} (hm : m' ≠ m) :
    (s.addDefault initialized m).defaultApiMap m' = s.defaultApiMap m' := by
  unfold State.addDefault State.createTessBaseAPI
  cases initialized m with
  | true => exact Function.update_of_ne hm _ _
  | false => exact Function.update_of_ne hm _ _

theorem inv_init (initialized : Method → Bool) : Inv tesseract (State.init initialized : State T I) := by
  refine ((inv_empty.addDefault initialized ?_).addDefault initialized ?_).addDefault initialized ?_
  · rfl
  · rw [defaultApiMap_addDefault initialized (by decide)]
  · rw [defaultApiMap_addDefault initialized (by decide), defaultApiMap_addDefault initialized (by decide)]

/-- `getApi` answers with the engine the configuration has afterwards. -/
theorem Inv.getApi (h : Inv tesseract s) (c : ApiConfig) (initialized : Bool) :
    Inv tesseract (s.getApi c initialized).2 ∧
      ∀ api, (s.getApi c initialized).1 = some api → (s.getApi c initialized).2.find c = some api := by
  unfold State.getApi
  cases hc : isDefaultApi c with
  | true => exact ⟨h, fun api hapi => by rw [State.find, if_pos hc]; exact hapi⟩
  | false =>
    have hfind : s.find c = s.specialApiMap c := by
      rw [State.find, hc]
      rfl
    rw [if_neg (by decide)]
    cases hspecial : s.specialApiMap c with
    | some api => exact ⟨h, fun api' hapi => by rw [hfind, hspecial]; exact hapi⟩
    | none =>
      have hnone : s.find c = none := hfind.trans hspecial
      unfold State.createTessBaseAPI
      cases initialized with
      | true =>
        refine ⟨h.put hnone rfl (fun a => find_updateSpecial hc _ a _) rfl rfl rfl, fun api hapi => ?_⟩
        exact (find_updateSpecial hc _ c _).trans ((if_pos rfl).trans hapi)
      | false =>
        refine ⟨h.same rfl ?_ rfl rfl rfl, nofun⟩
        funext a
        refine (find_updateSpecial hc none a s.engines).trans ?_
        split
        · rename_i hkey
          rw [find_key s hkey, hnone]
        · rfl

section

variable [DecidableEq T]

/-- A thread goes on, not into `getText`. -/
theorem Inv.goto (h : Inv tesseract s) (t : T) {pc : PC I} (hgot : ∀ c api, pc = .got c (some api) → s.find c = some api)
    (hpc : ∀ c api image, pc ≠ .reading c api image) :
    Inv tesseract { s with thread := Function.update s.thread t pc } := by
  refine ⟨h.table, h.apart, fun u c api hu => ?_, fun u c api image hu => ?_, h.own, h.used⟩ <;> dsimp only at hu
  · rcases eq_or_ne u t with rfl | hne
    · rw [Function.update_self] at hu
      exact hgot c api hu
    · rw [Function.update_of_ne hne] at hu
      exact h.got u c api hu
  · rcases eq_or_ne u t with rfl | hne
    · rw [Function.update_self] at hu
      exact absurd hu (hpc c api image)
    · rw [Function.update_of_ne hne] at hu
      exact h.reading u c api image hu

/-- A thread comes into `getText`. -/
theorem Inv.setImage (h : Inv tesseract s) {t : T} {c : ApiConfig} {api : ℕ} (ht : s.thread t = .got c (some api))
    (hfree : s.monitor = none) (image : I) : Inv tesseract { s with
      engines := s.engines.modify api fun engine => { engine with image := some image }
      monitor := some t
      thread := Function.update s.thread t (.reading c api image) } := by
  have hfound := h.got t c api ht
  have hmodify : ∀ (api' : ℕ) (engine : TessBaseAPI I), s.engines[api']? = some engine → ∃ engine',
      (s.engines.modify api fun engine => { engine with image := some image })[api']? = some engine' ∧
        engine'.settings = engine.settings ∧ (api' = api → engine'.image = some image) := by
    intro api' engine he
    rw [List.getElem?_modify, he]
    by_cases hapi : api = api'
    · exact ⟨{ engine with image := some image }, by simp [hapi], rfl, fun _ => rfl⟩
    · exact ⟨engine, by simp [hapi], rfl, fun heq => absurd heq.symm hapi⟩
  refine ⟨fun a api' ha => ?_, h.apart, fun u a api' hu => ?_, fun u a api' image' hu => ?_, h.own, h.used⟩ <;>
    dsimp only at *
  · obtain ⟨engine, he, hset⟩ := h.table a api' ha
    obtain ⟨engine', he', hset', -⟩ := hmodify api' engine he
    exact ⟨engine', he', hset'.trans hset⟩
  · rcases eq_or_ne u t with rfl | hne
    · rw [Function.update_self] at hu
      cases hu
    · rw [Function.update_of_ne hne] at hu
      exact h.got u a api' hu
  · rcases eq_or_ne u t with rfl | hne
    · rw [Function.update_self] at hu
      cases hu
      obtain ⟨engine, he, -⟩ := h.table c api hfound
      obtain ⟨engine', he', -, himage⟩ := hmodify api engine he
      exact ⟨hfound, rfl, engine', he', himage rfl⟩
    · -- nobody else was in it
      rw [Function.update_of_ne hne] at hu
      rw [(h.reading u a api' image' hu).2.1] at hfree
      cases hfree

/-- A call returns; the thread that was in `getText` leaves it. -/
theorem Inv.done (h : Inv tesseract s) {d : Detection T I} {monitor : Option T} (hown : Own tesseract d)
    (hused : ∀ api, d.tessBaseAPI = some api → s.find d.apiConfig = some api)
    (hmonitor : ∀ u, u ≠ d.thread → s.monitor = some u → monitor = some u) : Inv tesseract { s with
      monitor := monitor
      thread := Function.update s.thread d.thread .idle
      detections := s.detections ++ [d] } := by
  have hgoto : Inv tesseract { s with thread := Function.update s.thread d.thread .idle } :=
    h.goto d.thread nofun nofun
  refine ⟨h.table, h.apart, hgoto.got, fun u c api image hu => ?_, fun d' hd' => ?_, fun d' hd' => ?_⟩ <;> dsimp only at *
  · obtain ⟨hfound, hmon, hengine⟩ := hgoto.reading u c api image hu
    refine ⟨hfound, hmonitor u ?_ hmon, hengine⟩
    rintro rfl
    rw [Function.update_self] at hu
    cases hu
  · rcases List.mem_append.mp hd' with hd' | hd'
    · exact h.own d' hd'
    · rw [List.mem_singleton.mp hd']
      exact hown
  · rcases List.mem_append.mp hd' with hd' | hd'
    · exact h.used d' hd'
    · rw [List.mem_singleton.mp hd']
      exact hused

theorem inv_step {a : Action T I} (h : Inv tesseract s) (hs : step tesseract s a = some s') : Inv tesseract s' := by
  cases a with
  | detect t c =>
    simp only [step] at hs
    split at hs <;> cases hs
    exact h.goto t nofun nofun
  | getApi t initialized =>
    simp only [step] at hs
    split at hs
    · rename_i c _
      cases hs
      obtain ⟨hinv, hfound⟩ := h.getApi c initialized
      refine hinv.goto t (fun c' api hpc => ?_) nofun
      obtain ⟨rfl, hapi⟩ := PC.got.inj hpc
      exact hfound api hapi
    · cases hs
  | fail t =>
    simp only [step] at hs
    split at hs <;> cases hs
    exact h.goto t nofun nofun
  | setImage t image =>
    simp only [step] at hs
    split at hs
    · rename_i c api ht hfree
      cases hs
      exact h.setImage ht hfree image
    · rename_i c ht hfree
      cases hs
      exact h.done (d := ⟨t, c, image, none, true, ("", 0)⟩) rfl nofun fun u _ hu => hu
    · cases hs
  | getUTF8Text t threw =>
    simp only [step] at hs
    split at hs
    · rename_i c api image ht
      obtain ⟨engine, he, rfl⟩ := Option.map_eq_some_iff.mp hs
      obtain ⟨hfound, hmon, engine', he', himage⟩ := h.reading t c api image ht
      obtain ⟨engine'', he'', hset⟩ := h.table c api hfound
      obtain rfl := Option.some.inj (he.symm.trans he')
      obtain rfl := Option.some.inj (he.symm.trans he'')
      refine h.done (d := ⟨t, c, image, some api, threw, _⟩) ?_ ?_ fun u hne hu => ?_
      · dsimp only [Own]
        rw [hset, himage]
        cases threw <;> simp
      · rintro api' ⟨⟩
        exact hfound
      · rw [hmon] at hu
        exact absurd (Option.some.inj hu).symm hne
    · cases hs

theorem inv_of_reach {initialized : Method → Bool}
    (h : Reach (step tesseract) anyStep (State.init initialized) s) : Inv tesseract s :=
  h.invariant (inv_init initialized) fun _ _ _ hi _ hs => inv_step hi hs

/-- However the calls of the threads are interleaved, each returns what an engine set up
for its configuration reads of its own picture, unless it got no engine or the reading
threw. -/
theorem own_text {initialized : Method → Bool} (h : Reach (step tesseract) anyStep (State.init initialized) s) :
    ∀ d ∈ s.detections, d.result =
      if d.tessBaseAPI.isSome ∧ d.threw = false then tesseract (settings d.apiConfig) (some d.image) else ("", 0) :=
  (inv_of_reach h).own

/-- Two threads with one engine between them, and what they read. -/
theorem own_text_two : ∃ s : State Bool ℕ, s.detections.map Detection.result = [("", 5), ("", 6)] ∧
    ∀ d ∈ s.detections, d.result = if d.tessBaseAPI.isSome ∧ d.threw = false then ("", (d.image : ℤ)) else ("", 0) := by
  obtain ⟨s, hrun, hresults⟩ : ∃ s : State Bool ℕ,
      run (step fun _ image => ("", ((image.getD 0 : ℕ) : ℤ))) anyStep (State.init fun _ => true)
        [.detect true (ofMethod .ENG), .getApi true true, .detect false (ofMethod .ENG), .setImage true 5,
          .getApi false true, .getUTF8Text true false, .setImage false 6, .getUTF8Text false false] = some s ∧
        s.detections.map Detection.result = [("", 5), ("", 6)] := ⟨_, rfl, rfl⟩
  exact ⟨s, hresults, own_text (reach_of_run _ .start hrun)⟩

/-- Two calls that got an engine got the same one exactly if their configurations are
equal, or ask for the same language and nothing else. -/
theorem shared_iff {initialized : Method → Bool} (h : Reach (step tesseract) anyStep (State.init initialized) s)
    {d d' : Detection T I} (hd : d ∈ s.detections) (hd' : d' ∈ s.detections) {api api' : ℕ}
    (hapi : d.tessBaseAPI = some api) (hapi' : d'.tessBaseAPI = some api') :
    api = api' ↔ d.apiConfig = d'.apiConfig ∨
      isDefaultApi d.apiConfig = true ∧ isDefaultApi d'.apiConfig = true ∧ d.apiConfig.method = d'.apiConfig.method := by
  have hinv := inv_of_reach h
  have hfound := hinv.used d hd api hapi
  have hfound' := hinv.used d' hd' api' hapi'
  rw [← key_eq_iff]
  constructor
  · rintro rfl
    exact hinv.apart _ _ api hfound hfound'
  · intro hkey
    rw [find_key s hkey, hfound'] at hfound
    exact (Option.some.inj hfound).symm

/-- Two threads that ask for one language, the second with an empty list of characters. -/
theorem shared_iff_language : ∃ (s : State Bool ℕ) (d d' : Detection Bool ℕ), d ∈ s.detections ∧ d' ∈ s.detections ∧
    d.apiConfig ≠ d'.apiConfig ∧ d.tessBaseAPI = some 1 ∧ d'.tessBaseAPI = some 1 ∧
    (1 = 1 ↔ d.apiConfig = d'.apiConfig ∨ isDefaultApi d.apiConfig = true ∧ isDefaultApi d'.apiConfig = true ∧
      d.apiConfig.method = d'.apiConfig.method) := by
  obtain ⟨s, hrun, hdone⟩ : ∃ s : State Bool ℕ, run (step fun _ _ => ("", 0)) anyStep (State.init fun _ => true)
      [.detect true (ofMethod .ENG), .getApi true true, .setImage true 5, .getUTF8Text true false,
        .detect false { ofMethod .ENG with whitelist := some "" }, .getApi false true, .setImage false 6,
        .getUTF8Text false false] = some s ∧
      s.detections = [⟨true, ofMethod .ENG, 5, some 1, false, ("", 0)⟩,
        ⟨false, { ofMethod .ENG with whitelist := some "" }, 6, some 1, false, ("", 0)⟩] := ⟨_, rfl, rfl⟩
  have hd : (⟨true, ofMethod .ENG, 5, some 1, false, ("", 0)⟩ : Detection Bool ℕ) ∈ s.detections := by simp [hdone]
  have hd' : (⟨false, { ofMethod .ENG with whitelist := some "" }, 6, some 1, false, ("", 0)⟩ : Detection Bool ℕ) ∈
      s.detections := by simp [hdone]
  exact ⟨s, _, _, hd, hd', by decide, rfl, rfl, shared_iff (reach_of_run _ .start hrun) hd hd' rfl rfl⟩

end

end OcrEngines
end PGCon

/-
# Skills of the charm search

The charm search reads the names of skills from the screen. `AVAILABLE_SKILLS` maps each
name, without what is no letter and in lower case, to the skill as it is written. A text
that is no key of it is taken for a misreading: `calculateSkill` picks a skill for it and,
if it is told to, puts the text into the map, so that the map grows.

The skills of the map stay those it began with (`holdsRaw_reach`), so what is picked does
not depend on the history but for the order in which the map is visited. It is some skill
nearest to the text as it is written, with its capitals and spaces (`chosen_iff`).
Whether that is the skill whose name without them is nearest, and the shortest of those,
depends on the text (`closest_iff`).
-/
import PGCon.EditDistance
import PGCon.Machine
import PGCon.Protocol
import PGCon.Text

namespace PGCon
namespace CharmSkills

open EditDistance Effect Machine Text

/-! ### The script -/

/-- The names of `getRawSkills`. -/
def RAW_NAMES : List String :=
  ["Attack Boost", "Agitator", "Peak Performance", "Resentment", "Resuscitate", "Critical Eye",
   "Critical Boost", "Weakness Exploit", "Latent Power", "Maximum Might", "Critical Element",
   "Master's Touch", "Fire Attack", "Water Attack", "Ice Attack", "Thunder Attack", "Dragon Attack",
   "Poison Attack", "Paralysis Attack", "Sleep Attack", "Blast Attack", "Handicraft", "Razor Sharp",
   "Spare Shot", "Protective Polish", "Mind's Eye", "Ballistics", "Bludgeoner", "Bow Charge Plus", "Focus",
   "Power Prolonger", "Marathon Runner", "Constitution", "Stamina Surge", "Guard", "Guard Up",
   "Offensive Guard", "Critical Draw", "Punishing Draw", "Quick Sheathe", "Slugger", "Stamina Thief",
   "Affinity Sliding", "Horn Maestro", "Artillery", "Load Shells", "Special Ammo Boost", "Normal/Rapid Up",
   "Pierce Up", "Spread Up", "Ammo Up", "Reload Speed", "Recoil Down", "Steadiness", "Rapid Fire Up",
   "Defense Boost", "Divine Blessing", "Recovery Up", "Recovery Speed", "Speed Eating", "Earplugs",
   "Windproof", "Tremor Resistance", "Bubbly Dance", "Evade Window", "Evade Extender", "Fire Resistance",
   "Water Resistance", "Ice Resistance", "Thunder Resistance", "Dragon Resistance", "Blight Resistance",
   "Poison Resistance", "Paralysis Resistance", "Sleep Resistance", "Stun Resistance", "Muck Resistance",
   "Blast Resistance", "Botanist", "Geologist", "Partbreaker", "Capture Master", "Carving Master",
   "Good Luck", "Speed Sharpening", "Bombardier", "Mushroomancer", "Item Prolonger", "Wide-Range",
   "Free Meal", "Heroics", "Fortify", "Flinch Free", "Jump Master", "Carving Pro", "Hunger Resistance",
   "Leap of Faith", "Diversion", "Master Mounter", "Chameleos Blessing", "Kushala Blessing",
   "Teostra Blessing", "Dragonheart", "Wirebug Whisperer", "Wall Runner", "Counterstrike", "Rapid Morph",
   "Hellfire Cloak", "Wind Alignment", "Thunder Alignment", "Stormsoul", "Blood Rite", "Dereliction",
   "Furious", "Mail of Hellfire", "Coalescence", "Bloodlust", "Defiance", "Sneak Attack", "Adrenaline Rush",
   "Redirection", "Spiribird's Call", "Charge Master", "Foray", "Tune-Up", "Grinder (S)", "Bladescale Hone",
   "Wall Runner (Boost)", "Quick Breath", "Element Exploit", "Chain Crit", "Guts", "Status Trigger"]

/-- The set `RAW_SKILLS`. -/
def RAW_SKILLS : List JavaString := RAW_NAMES.map lit

def isLetter (c : JavaChar) : Bool := (unit 'a' ≤ c && c ≤ unit 'z') || (unit 'A' ≤ c && c ≤ unit 'Z')

/-- `toLowerCase` of a letter. -/
def toLowerCase (c : JavaChar) : JavaChar := if unit 'A' ≤ c && c ≤ unit 'Z' then c + 32 else c

/-- `skill.replaceAll("[^a-zA-Z]", "").toLowerCase()`. -/
def convertEnglishSkill (skill : JavaString) : JavaString := (skill.filter isLetter).map toLowerCase

/-- `Map<String, String>`. -/
abbrev SkillMap := AList fun _ : JavaString => JavaString

/-- An entry of it. -/
abbrev SkillEntry := (_ : JavaString) × JavaString

/-- `getAvailableSkills`, when the raw skills come in the order `raw`. -/
def getAvailableSkills (raw : List JavaString) : SkillMap :=
  let skills := raw.foldl (fun (skills : SkillMap) skill => skills.insert (convertEnglishSkill skill) skill) ∅
  (skills.insert (lit "temprolonger") (lit "Item Prolonger")).insert (lit "hommaestro") (lit "Horn Maestro")

/-- The skills and the texts reported. -/
structure Script where
  AVAILABLE_SKILLS : SkillMap
  hashSet : Finset JavaString

def start (raw : List JavaString) : Script := ⟨getAvailableSkills raw, ∅⟩

/-- What the script asks for during a call: the entries of the map in the order `forEach`
visits them, two values of the configuration, and what `press(CAPTURE)` comes to. -/
structure Call where
  entries : List SkillEntry
  captureScreenWhenUnknownSkillDetected : Bool
  press : Except JavaException Unit
  enableAutomaticSkillMatching : Bool

/-- `Comparator.comparingInt(Pair::getKey)`. -/
def comparing (p q : ℕ × JavaString) : Prop := p.1 ≤ q.1

instance : DecidableRel comparing := fun p q => inferInstanceAs (Decidable (p.1 ≤ q.1))

/-- The first pair of a score and a skill when they are sorted. -/
def firstPair (entries : List SkillEntry) (text : JavaString) : Option (ℕ × JavaString) :=
  ((entries.map fun e => (levenshtein e.2 text, e.2)).insertionSort comparing).head?

/-- What is done for a pair that was not reported yet. -/
def report (call : Call) (text skill : JavaString) : Java Script Unit := do
  if call.captureScreenWhenUnknownSkillDetected = true then MonadExcept.ofExcept call.press
  if call.enableAutomaticSkillMatching = true then
    modify fun s => { s with AVAILABLE_SKILLS := s.AVAILABLE_SKILLS.insert text skill }

def calculateSkill (call : Call) (text : JavaString) : Java Script Unit :=
  match firstPair call.entries text with
  | none => throw .indexOutOfBounds
  | some pair => do
    let s ← get
    if text ++ lit "|" ++ pair.2 ∉ s.hashSet then
      modify fun s => { s with hashSet := insert (text ++ lit "|" ++ pair.2) s.hashSet }
      report call text pair.2

/-- What `detectSkill` does with a text it is given, or with `null`. -/
def accepts (call : Call) (input : Option JavaString) : Java Script Bool :=
  match input.map convertEnglishSkill with
  | none => throw .nullPointer
  | some text => do
    let s ← get
    let containsKey := decide (text ∈ s.AVAILABLE_SKILLS)
    if text ≠ [] ∧ containsKey = false then calculateSkill call text
    return containsKey

/-- A text is read; an exception ends `detectSkill` and what was done stays done. -/
def step (s : Script) (reading : Call × Option JavaString) : Option Script :=
  some (left (accepts reading.1 reading.2 s))

/-- `forEach` visits each entry of the map once. -/
def Visits (s : Script) (reading : Call × Option JavaString) : Prop :=
  reading.1.entries.Perm s.AVAILABLE_SKILLS.entries

/-! ### What it is for -/

/-- The skills of a map. -/
def skills (entries : List SkillEntry) : List JavaString := entries.map Sigma.snd

/-- The skill picked for a text. -/
def chosen (entries : List SkillEntry) (text : JavaString) : Option JavaString :=
  (firstPair entries text).map Prod.snd

/-- No skill has a name that is nearer to the text, or as near and shorter. -/
def Closest (skills : List JavaString) (text skill : JavaString) : Prop :=
  skill ∈ skills ∧ ∀ other ∈ skills,
    editDistance (convertEnglishSkill skill) text < editDistance (convertEnglishSkill other) text ∨
      editDistance (convertEnglishSkill skill) text = editDistance (convertEnglishSkill other) text ∧
        skill.length ≤ other.length

/-- No skill, as it is written, is nearer to the text. -/
def Nearest (skills : List JavaString) (text skill : JavaString) : Prop :=
  skill ∈ skills ∧ ∀ other ∈ skills, editDistance skill text ≤ editDistance other text

/-! ### The choice -/

section Choice

instance : Std.Total comparing := ⟨fun p q => le_total p.1 q.1⟩
instance : IsTrans (ℕ × JavaString) comparing := ⟨fun _ _ _ => le_trans⟩

variable {entries : List SkillEntry} {text skill : JavaString} {l m : List JavaString}

theorem Nearest.congr (h : ∀ v, v ∈ l ↔ v ∈ m) : Nearest l text skill ↔ Nearest m text skill := by
  simp only [Nearest, h]

theorem Closest.congr (h : ∀ v, v ∈ l ↔ v ∈ m) : Closest l text skill ↔ Closest m text skill := by
  simp only [Closest, h]

theorem nearest_of_chosen (h : chosen entries text = some skill) : Nearest (skills entries) text skill := by
  obtain ⟨p, hp, rfl⟩ := Option.map_eq_some_iff.mp h
  obtain ⟨rest, hsorted⟩ := List.head?_eq_some_iff.mp hp
  have hperm := List.perm_insertionSort comparing (entries.map fun e => (levenshtein e.2 text, e.2))
  have hle := List.pairwise_insertionSort comparing (entries.map fun e => (levenshtein e.2 text, e.2))
  rw [hsorted] at hperm hle
  obtain ⟨e, he, rfl⟩ := List.mem_map.mp (hperm.mem_iff.mp List.mem_cons_self)
  refine ⟨List.mem_map_of_mem he, fun other hother => ?_⟩
  obtain ⟨e', he', rfl⟩ := List.mem_map.mp hother
  rw [← levenshtein_eq, ← levenshtein_eq]
  rcases List.mem_cons.mp (hperm.mem_iff.mpr (List.mem_map_of_mem he')) with heq | hrest
  · exact (congrArg Prod.fst heq).ge
  · exact List.rel_of_pairwise_cons hle hrest

/-- A nearest skill visited first is picked. -/
theorem chosen_cons (e : SkillEntry) (h : Nearest (skills (e :: entries)) text e.2) :
    chosen (e :: entries) text = some e.2 := by
  rw [chosen, firstPair, List.map_cons, List.insertionSort_cons_of_forall_rel]
  · rfl
  · intro p hp
    obtain ⟨e', he', rfl⟩ := List.mem_map.mp hp
    change levenshtein e.2 text ≤ levenshtein e'.2 text
    rw [levenshtein_eq, levenshtein_eq]
    exact h.2 e'.2 (List.mem_cons_of_mem _ (List.mem_map_of_mem he'))

theorem exists_chosen (text : JavaString) (h : skill ∈ skills entries) : ∃ other, chosen entries text = some other := by
  rcases hp : firstPair entries text with - | p
  · exfalso
    have hnil := List.head?_eq_none_iff.mp hp
    have hperm := List.perm_insertionSort comparing (entries.map fun e => (levenshtein e.2 text, e.2))
    rw [hnil] at hperm
    have hentries : entries = [] := List.map_eq_nil_iff.mp hperm.nil_eq.symm
    simp [skills, hentries] at h
  · exact ⟨p.2, by rw [chosen, hp]; rfl⟩

/-- In one order or another, exactly the skills that are nearest as they are written are
picked. -/
theorem chosen_iff (all : List SkillEntry) (text skill : JavaString) :
    (∃ entries, entries.Perm all ∧ chosen entries text = some skill) ↔ Nearest (skills all) text skill := by
  constructor
  · rintro ⟨entries, hperm, h⟩
    exact (Nearest.congr fun v => (hperm.map Sigma.snd).mem_iff).mp (nearest_of_chosen h)
  · intro h
    obtain ⟨e, he, rfl⟩ := List.mem_map.mp h.1
    obtain ⟨left, right, rfl⟩ := List.append_of_mem he
    have hperm : (e :: (left ++ right)).Perm (left ++ e :: right) := List.perm_middle.symm
    refine ⟨e :: (left ++ right), hperm, chosen_cons e ?_⟩
    exact (Nearest.congr fun v => (hperm.map Sigma.snd).mem_iff).mpr h

end Choice

/-! ### The map -/

theorem mem_skills_insert {m : SkillMap} {text : JavaString} (h : text ∉ m) (skill v : JavaString) :
    v ∈ skills (m.insert text skill).entries ↔ v = skill ∨ v ∈ skills m.entries := by
  rw [skills, AList.entries_insert_of_notMem h, List.map_cons, List.mem_cons, skills]

/-- Putting skills with new and different names adds them. -/
theorem mem_skills_puts : ∀ (raw : List JavaString) (m : SkillMap), (raw.map convertEnglishSkill).Nodup →
    (∀ skill ∈ raw, convertEnglishSkill skill ∉ m) →
    let puts := raw.foldl (fun (skills : SkillMap) skill => skills.insert (convertEnglishSkill skill) skill) m
    (∀ k, k ∈ puts ↔ k ∈ m ∨ k ∈ raw.map convertEnglishSkill) ∧
      ∀ v, v ∈ skills puts.entries ↔ v ∈ skills m.entries ∨ v ∈ raw
  | [], m, _, _ => by simp
  | skill :: raw, m, hnodup, hnew => by
    rw [List.map_cons, List.nodup_cons] at hnodup
    rw [List.forall_mem_cons] at hnew
    have hnew' : ∀ other ∈ raw, convertEnglishSkill other ∉ m.insert (convertEnglishSkill skill) skill := by
      intro other hother hin
      rcases (AList.mem_insert m).mp hin with heq | hin
      · exact hnodup.1 (heq ▸ List.mem_map_of_mem hother)
      · exact hnew.2 other hother hin
    obtain ⟨hkeys, hvalues⟩ := mem_skills_puts raw (m.insert (convertEnglishSkill skill) skill) hnodup.2 hnew'
    refine ⟨fun k => ?_, fun v => ?_⟩
    · rw [List.foldl_cons, hkeys, AList.mem_insert, List.map_cons, List.mem_cons]
      tauto
    · rw [List.foldl_cons, hvalues, mem_skills_insert hnew.1, List.mem_cons]
      tauto

/-- No two skills have the same letters, nor the letters of a known misreading. -/
theorem nodup_keys :
    (lit "hommaestro" :: lit "temprolonger" :: RAW_SKILLS.map convertEnglishSkill).Nodup := by
  decide +kernel

theorem mem_raw (name : String) (h : name ∈ RAW_NAMES) : lit name ∈ RAW_SKILLS := List.mem_map_of_mem h

/-- The map begins with every skill, and with these two more keys. -/
theorem mem_getAvailableSkills {raw : List JavaString} (h : raw.Perm RAW_SKILLS) :
    (∀ k, k ∈ getAvailableSkills raw ↔
      k ∈ lit "hommaestro" :: lit "temprolonger" :: RAW_SKILLS.map convertEnglishSkill) ∧
    ∀ v, v ∈ skills (getAvailableSkills raw).entries ↔ v ∈ RAW_SKILLS := by
  have hnodup := nodup_keys
  rw [List.nodup_cons, List.nodup_cons] at hnodup
  obtain ⟨hhorn, hitem, hraw⟩ := hnodup
  have hperm := h.map convertEnglishSkill
  obtain ⟨hkeys, hvalues⟩ := mem_skills_puts raw ∅ (hperm.nodup_iff.mpr hraw) fun _ _ => AList.notMem_empty _
  have hitem' : lit "temprolonger" ∉
      raw.foldl (fun (skills : SkillMap) skill => skills.insert (convertEnglishSkill skill) skill) ∅ := by
    rw [hkeys, hperm.mem_iff, or_iff_right (AList.notMem_empty _)]
    exact hitem
  have hhorn' : lit "hommaestro" ∉ AList.insert (lit "temprolonger") (lit "Item Prolonger")
      (raw.foldl (fun (skills : SkillMap) skill => skills.insert (convertEnglishSkill skill) skill) ∅) := by
    rw [AList.mem_insert, hkeys, hperm.mem_iff, or_iff_right (AList.notMem_empty _), ← List.mem_cons]
    exact hhorn
  constructor
  · intro k
    rw [getAvailableSkills, AList.mem_insert, AList.mem_insert, hkeys, hperm.mem_iff, List.mem_cons, List.mem_cons]
    simp
  · intro v
    rw [getAvailableSkills, mem_skills_insert hhorn', mem_skills_insert hitem', hvalues, h.mem_iff]
    constructor
    · rintro (rfl | rfl | hv | hv)
      · exact mem_raw "Horn Maestro" (by decide)
      · exact mem_raw "Item Prolonger" (by decide)
      · simp [skills] at hv
      · exact hv
    · intro hv
      exact .inr (.inr (.inr hv))

/-! ### Readings -/

theorem left_report (call : Call) (text skill : JavaString) (s : Script) :
    (left (report call text skill s)).AVAILABLE_SKILLS = s.AVAILABLE_SKILLS ∨
      (left (report call text skill s)).AVAILABLE_SKILLS = s.AVAILABLE_SKILLS.insert text skill := by
  obtain ⟨entries, capture, press, enable⟩ := call
  rcases capture with - | -
  · rcases enable with - | -
    · exact .inl rfl
    · exact .inr rfl
  · rcases press with e | u
    · exact .inl rfl
    · rcases enable with - | -
      · exact .inl rfl
      · exact .inr rfl

/-- A call leaves the map or puts the text with the skill picked. -/
theorem left_calculateSkill (call : Call) (text : JavaString) (s : Script) :
    (left (calculateSkill call text s)).AVAILABLE_SKILLS = s.AVAILABLE_SKILLS ∨
      ∃ skill, chosen call.entries text = some skill ∧
        (left (calculateSkill call text s)).AVAILABLE_SKILLS = s.AVAILABLE_SKILLS.insert text skill := by
  rw [calculateSkill]
  rcases hp : firstPair call.entries text with - | p
  · exact .inl rfl
  · have hchosen : chosen call.entries text = some p.2 := by rw [chosen, hp]; rfl
    simp only [get_bind_run, ite_run]
    split
    · rw [modify_bind_run]
      rcases left_report call text p.2 { s with hashSet := insert (text ++ lit "|" ++ p.2) s.hashSet } with h | h
      · exact .inl h
      · exact .inr ⟨p.2, hchosen, h⟩
    · exact .inl rfl

/-- A text that is read is put only when it is new. -/
theorem left_accepts (call : Call) (input : Option JavaString) (s : Script) :
    (left (accepts call input s)).AVAILABLE_SKILLS = s.AVAILABLE_SKILLS ∨
      ∃ text skill, text ∉ s.AVAILABLE_SKILLS ∧ chosen call.entries text = some skill ∧
        (left (accepts call input s)).AVAILABLE_SKILLS = s.AVAILABLE_SKILLS.insert text skill := by
  rw [accepts]
  rcases input.map convertEnglishSkill with - | text
  · exact .inl rfl
  · simp only [get_bind_run]
    split
    · rename_i hnew
      have hleft := left_bind_of_frame (π := Script.AVAILABLE_SKILLS) (calculateSkill call text)
        (fun _ => Frame.pure (decide (text ∈ s.AVAILABLE_SKILLS))) s
      rcases left_calculateSkill call text s with hsame | ⟨skill, hchosen, hput⟩
      · exact .inl (hleft.trans hsame)
      · exact .inr ⟨text, skill, of_decide_eq_false hnew.2, hchosen, hleft.trans hput⟩
    · exact .inl rfl

/-- The skills of the map are the raw skills. -/
def HoldsRaw (s : Script) : Prop := ∀ v, v ∈ skills s.AVAILABLE_SKILLS.entries ↔ v ∈ RAW_SKILLS

theorem holdsRaw_step {s s' : Script} {reading : Call × Option JavaString} (hs : HoldsRaw s) (hvisits : Visits s reading)
    (h : step s reading = some s') : HoldsRaw s' := by
  obtain rfl := Option.some.inj h
  intro v
  rcases left_accepts reading.1 reading.2 s with hsame | ⟨text, skill, hnew, hchosen, hput⟩
  · rw [hsame]
    exact hs v
  · have hnear := (chosen_iff _ text skill).mp ⟨reading.1.entries, hvisits, hchosen⟩
    have hskill : skill ∈ RAW_SKILLS := (hs skill).mp hnear.1
    rw [hput, mem_skills_insert hnew, hs v, or_iff_right_of_imp]
    rintro rfl
    exact hskill

/-- So they stay whatever was read before. -/
theorem holdsRaw_reach {raw : List JavaString} (hraw : raw.Perm RAW_SKILLS) {s : Script}
    (h : Reach step Visits (start raw) s) : HoldsRaw s :=
  h.invariant (mem_getAvailableSkills hraw).2 fun _ _ _ hs hvisits hstep => holdsRaw_step hs hvisits hstep

/-- Of such a map some skill is picked, one that is nearest as it is written. -/
theorem exists_nearest {s : Script} (hs : HoldsRaw s) {entries : List SkillEntry}
    (hperm : entries.Perm s.AVAILABLE_SKILLS.entries) (text : JavaString) :
    ∃ skill, chosen entries text = some skill ∧ Nearest RAW_SKILLS text skill := by
  have hin : lit "Guard" ∈ skills entries := by
    rw [skills, (hperm.map Sigma.snd).mem_iff]
    exact (hs _).mpr (mem_raw "Guard" (by decide))
  obtain ⟨skill, hchosen⟩ := exists_chosen text hin
  exact ⟨skill, hchosen, (Nearest.congr hs).mp ((chosen_iff _ text skill).mp ⟨entries, hperm, hchosen⟩)⟩

/-! ### The closest skill -/

/-- After any readings, and in whatever order the map is visited, the skill picked for a
text is the closest if and only if every skill that is nearest as it is written is the
closest. -/
theorem closest_iff {raw : List JavaString} (hraw : raw.Perm RAW_SKILLS) {s : Script}
    (h : Reach step Visits (start raw) s) (text : JavaString) :
    (∀ entries, entries.Perm s.AVAILABLE_SKILLS.entries → ∃ skill, chosen entries text = some skill ∧
      Closest (skills s.AVAILABLE_SKILLS.entries) text skill) ↔
    ∀ skill, Nearest RAW_SKILLS text skill → Closest RAW_SKILLS text skill := by
  have hskills := holdsRaw_reach hraw h
  constructor
  · intro hall skill hnear
    obtain ⟨entries, hperm, hchosen⟩ := (chosen_iff _ text skill).mpr ((Nearest.congr hskills).mpr hnear)
    obtain ⟨other, hother, hclosest⟩ := hall entries hperm
    obtain rfl : skill = other := Option.some.inj (hchosen.symm.trans hother)
    exact (Closest.congr hskills).mp hclosest
  · intro hall entries hperm
    obtain ⟨skill, hchosen, hnear⟩ := exists_nearest hskills hperm text
    exact ⟨skill, hchosen, (Closest.congr hskills).mpr (hall skill hnear)⟩

/-- `Guar Up` is read, and automatic matching is on. -/
def misreading : Call × Option JavaString :=
  (⟨(start RAW_SKILLS).AVAILABLE_SKILLS.entries, false, .ok (), true⟩, some (lit "Guar Up"))

/-- The skills after it. -/
def misread : Script := left (accepts misreading.1 misreading.2 (start RAW_SKILLS))

theorem closest_iff_misread : Reach step Visits (start RAW_SKILLS) misread ∧
    ((∀ entries, entries.Perm misread.AVAILABLE_SKILLS.entries → ∃ skill, chosen entries (lit "guar") = some skill ∧
      Closest (skills misread.AVAILABLE_SKILLS.entries) (lit "guar") skill) ↔
    ∀ skill, Nearest RAW_SKILLS (lit "guar") skill → Closest RAW_SKILLS (lit "guar") skill) := by
  have hreach : Reach step Visits (start RAW_SKILLS) misread := .step misreading .start (List.Perm.refl _) rfl
  exact ⟨hreach, closest_iff (List.Perm.refl _) hreach (lit "guar")⟩

/-! ### A misreading -/

/-- A new text is put with the skill picked for it. -/
theorem accepts_puts {call : Call} {input : Option JavaString} {s : Script} {text skill : JavaString}
    (htext : input.map convertEnglishSkill = some text) (hne : text ≠ []) (hnew : text ∉ s.AVAILABLE_SKILLS)
    (hchosen : chosen call.entries text = some skill) (hhash : text ++ lit "|" ++ skill ∉ s.hashSet)
    (hcapture : call.captureScreenWhenUnknownSkillDetected = false) (hmatch : call.enableAutomaticSkillMatching = true) :
    (left (accepts call input s)).AVAILABLE_SKILLS = s.AVAILABLE_SKILLS.insert text skill := by
  obtain ⟨p, hp, rfl⟩ := Option.map_eq_some_iff.mp hchosen
  have hcond : text ≠ [] ∧ decide (text ∈ s.AVAILABLE_SKILLS) = false := ⟨hne, decide_eq_false hnew⟩
  simp only [accepts, htext, get_bind_run]
  rw [if_pos hcond]
  apply (left_bind_of_frame (π := Script.AVAILABLE_SKILLS) (calculateSkill call text)
    (fun _ => Frame.pure (decide (text ∈ s.AVAILABLE_SKILLS))) s).trans
  rw [calculateSkill, hp]
  simp only [get_bind_run, ite_run, if_pos hhash, modify_bind_run, report, hcapture, hmatch]
  rfl

/-- But for `Guard` every skill is four edits from `guarup`: most are too long to be
nearer, the others are compared. -/
theorem guarup_facts : RAW_SKILLS.all fun other =>
    decide (convertEnglishSkill other ≠ lit "guarup") &&
      (decide (10 ≤ other.length) || decide (other = lit "Guard") || decide (4 ≤ levenshtein other (lit "guarup"))) := by
  decide +kernel

theorem guarup_new : lit "guarup" ∉ (start RAW_SKILLS).AVAILABLE_SKILLS := by
  rw [start, (mem_getAvailableSkills (List.Perm.refl _)).1, List.mem_cons, List.mem_cons, not_or, not_or]
  refine ⟨by decide, by decide, ?_⟩
  intro hin
  obtain ⟨other, hother, heq⟩ := List.mem_map.mp hin
  have hfacts := List.all_eq_true.mp guarup_facts other hother
  rw [Bool.and_eq_true] at hfacts
  exact of_decide_eq_true hfacts.1 heq

theorem eq_guard {skill : JavaString} (h : Nearest RAW_SKILLS (lit "guarup") skill) : skill = lit "Guard" := by
  have hle := h.2 (lit "Guard") (mem_raw "Guard" (by decide))
  have hguard : editDistance (lit "Guard") (lit "guarup") = 3 := by
    rw [← levenshtein_eq]
    decide
  have hlen := length_le_editDistance skill (lit "guarup")
  have hsix : (lit "guarup").length = 6 := by decide
  have hfacts := List.all_eq_true.mp guarup_facts skill h.1
  simp only [Bool.and_eq_true, Bool.or_eq_true, decide_eq_true_eq, levenshtein_eq] at hfacts
  rcases hfacts.2 with (hlong | hskill) | hfar
  · omega
  · exact hskill
  · omega

/-- In whatever order the map is visited. -/
theorem chosen_guarup {entries : List SkillEntry} (h : entries.Perm (start RAW_SKILLS).AVAILABLE_SKILLS.entries) :
    chosen entries (lit "guarup") = some (lit "Guard") := by
  have hskills : HoldsRaw (start RAW_SKILLS) := (mem_getAvailableSkills (List.Perm.refl _)).2
  obtain ⟨skill, hchosen, hnear⟩ := exists_nearest hskills h (lit "guarup")
  rw [hchosen, eq_guard hnear]

/-- `Guar Up`, a letter short of `Guard Up`, is taken for `Guard` from then on: the
capitals and the space count against the longer name. -/
theorem guard_up_mistaken : lit "guarup" ∉ (start RAW_SKILLS).AVAILABLE_SKILLS ∧
    chosen misreading.1.entries (lit "guarup") = some (lit "Guard") ∧
    misread.AVAILABLE_SKILLS.lookup (lit "guarup") = some (lit "Guard") ∧
    ¬ Closest (skills (start RAW_SKILLS).AVAILABLE_SKILLS.entries) (lit "guarup") (lit "Guard") := by
  have hskills : HoldsRaw (start RAW_SKILLS) := (mem_getAvailableSkills (List.Perm.refl _)).2
  have hchosen : chosen misreading.1.entries (lit "guarup") = some (lit "Guard") := chosen_guarup (List.Perm.refl _)
  have htext : misreading.2.map convertEnglishSkill = some (lit "guarup") := by decide
  refine ⟨guarup_new, hchosen, ?_, ?_⟩
  · rw [misread, accepts_puts htext (by decide) guarup_new hchosen (Finset.notMem_empty _) rfl rfl, AList.lookup_insert]
  · rintro ⟨-, hall⟩
    have hup := hall (lit "Guard Up") ((hskills _).mpr (mem_raw "Guard Up" (by decide)))
    rw [← levenshtein_eq, ← levenshtein_eq] at hup
    revert hup
    decide

end CharmSkills
end PGCon

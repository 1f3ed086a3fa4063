/-
# Which charms the search keeps

`load` reads the two texts of the configuration into the targets, and `charmAnalyze`
asks of each charm it sees whether it is one. The targets are fields of the script: they
are cleared and filled in turn, so a text that is refused leaves them half filled.

* `target_iff`: after `load`, whether it returned or not and whatever was loaded before, a
  charm is kept exactly if both texts were accepted, its slots satisfy a line, and each of
  its two skills is asked for, the last line about a skill being the one that counts. A
  charm with one skill is never kept.
* `load_stable`: what a text loads to does not change when texts read from the screen are
  matched to skills.
-/
import PGCon.CharmSkills
import PGCon.CharmSlots
import PGCon.Puts

namespace PGCon
namespace CharmTargets

open CharmSkills CharmSlots Effect Machine Text

/-! ### The script -/

/-- What `load` can throw. -/
inductive LoadException
  | alert (e : AlertErrorException)
  | nullPointer
  deriving DecidableEq

/-- `HashMap<String, Integer>`; its keys may be `null`. -/
abbrev Levels := Option JavaString → Option ℤ

structure Config where
  targetSkills : JavaString
  targetSlots : JavaString

/-- The two fields `load` fills. -/
structure Targets where
  slotTargets : List TargetSlot
  skillTargets : JavaString → Option ℤ

/-- The skill of a line, without its last character. -/
def skillName (trim : JavaString) : JavaString := convertEnglishSkill trim.dropLast

/-- `trim.charAt(trim.length() - 1)`, for a line that is not blank. -/
def lastChar (trim : JavaString) : JavaChar := trim.getLastD 0

def invalidLevel (trim : JavaString) : AlertErrorException := ⟨lit "Invalid skill level: " ++ trim⟩
def invalidSkill (trim : JavaString) : AlertErrorException := ⟨lit "Invalid skill: " ++ trim⟩

def addSkillTarget (available : SkillMap) (validator : Finset JavaString) (target : Levels) (targetSkill : JavaString) :
    Except AlertErrorException Levels :=
  let trim := trim targetSkill
  if trim.length = 0 then .ok target
  else if lastChar trim < 48 ∨ lastChar trim > 57 then .error (invalidLevel trim)
  else if skillName trim ∉ validator then .error (invalidSkill trim)
  else .ok (Puts.put target (available.lookup (skillName trim), (lastChar trim).toNat - 48))

def parseSkillTargets (available : SkillMap) (targetSkills : JavaString) (validator : Finset JavaString) :
    Except AlertErrorException Levels :=
  (split (unit '\n') targetSkills).foldlM (addSkillTarget available validator) fun _ => none

/-- A call of something that throws alerts. -/
def alerting {α : Type} (r : Except AlertErrorException α) : EStateM LoadException Targets α :=
  MonadExcept.ofExcept (r.mapError .alert)

/-- `load`, when a set of slot targets is visited in the order `order`. -/
def load (order : Finset TargetSlot → List TargetSlot) (available : SkillMap) (config : Config) :
    EStateM LoadException Targets Unit := do
  modify fun t => { t with slotTargets := [] }
  let slots ← alerting (parseSlotTargets config.targetSlots)
  modify fun t => { t with slotTargets := t.slotTargets ++ order slots }
  let t ← get
  if t.slotTargets.isEmpty = true then throw (.alert ⟨lit "Slot targets is empty!"⟩)
  let collect := available.keys.toFinset
  modify fun t => { t with skillTargets := fun _ => none }
  let target ← alerting (parseSkillTargets available config.targetSkills collect)
  -- a `ConcurrentHashMap` takes no `null`
  if (target none).isSome = true then throw .nullPointer
  modify fun t => { t with skillTargets := fun skill => (target (some skill)).or (t.skillTargets skill) }

def checkSkill (skillTargets : JavaString → Option ℤ) (skill1 : Option JavaString) (level1 : Option ℤ)
    (skill2 : Option JavaString) (level2 : Option ℤ) : Bool :=
  match skill1.bind skillTargets, skill2.bind skillTargets with
  | some l1, some l2 => l1 ≤ level1.getD 0 && l2 ≤ level2.getD 0
  | _, _ => false

/-- `getMax`: the place of the first of the largest similarities above zero. -/
def getMax (similarities : List ℚ) : ℕ :=
  (similarities.zipIdx.foldl (fun (max : ℕ × ℚ) s => if max.2 < s.1 then (s.2, s.1) else max) (0, 0)).1

/-- What `charmAnalyze` reads: the skills `detectSkill` returns, the levels as numbers or
`null`, and how well each picture of a slot matches, slot by slot. -/
structure Charm where
  skill1 : JavaString
  level1 : Option ℤ
  hasSkill2 : Bool
  skill2 : JavaString
  level2 : Option ℤ
  o1L : List ℚ
  o2L : List ℚ
  o3L : List ℚ

/-- The `isTarget` of `charmAnalyze`. -/
def isTarget (t : Targets) (c : Charm) : Bool :=
  checkSkill t.skillTargets (some c.skill1) c.level1 (if c.hasSkill2 then some c.skill2 else none)
      (if c.hasSkill2 then c.level2 else none) &&
    checkSlot t.slotTargets (getMax c.o1L) (getMax c.o2L) (getMax c.o3L)

/-! ### What it is for -/

/-- Lines that are not blank, trimmed. -/
def trimmed (ls : List JavaString) : List JavaString := (ls.map trim).filter (· ≠ [])

/-- Those of a text. -/
def items (text : JavaString) : List JavaString := trimmed (lines text)

/-- A level and, before it, the name of a skill. -/
def IsSkillTarget (available : SkillMap) (trim : JavaString) : Prop :=
  (unit '0' ≤ lastChar trim ∧ lastChar trim ≤ unit '9') ∧ skillName trim ∈ available

/-- The skill and the level of a line. -/
def item (available : SkillMap) (trim : JavaString) : Option JavaString × ℤ :=
  (available.lookup (skillName trim), ((lastChar trim).toNat : ℤ) - 48)

/-- What the text asks for, line by line. -/
def asked (available : SkillMap) (text : JavaString) : List (Option JavaString × ℤ) :=
  (items text).map (item available)

/-- The last line about the skill asks for no more than this level; a level that could not
be read counts as 0. -/
def Wants (available : SkillMap) (text skill : JavaString) (level : Option ℤ) : Prop :=
  ∃ before after n, asked available text = before ++ (some skill, n) :: after ∧
    (∀ other ∈ after, other.1 ≠ some skill) ∧ n ≤ level.getD 0

/-- Both texts can be read. -/
structure Accepted (available : SkillMap) (config : Config) : Prop where
  slots : ∀ line ∈ lines config.targetSlots, Fine line
  some_slot : ∃ line ∈ lines config.targetSlots, trim line ≠ []
  skills : ∀ entry ∈ items config.targetSkills, IsSkillTarget available entry

/-! ### The skills asked for -/

section

variable {available : SkillMap}

theorem digit_iff (c : JavaChar) : ¬ (c < 48 ∨ c > 57) ↔ unit '0' ≤ c ∧ c ≤ unit '9' := by
  unfold unit
  rw [not_or, BitVec.not_lt, gt_iff_lt, BitVec.not_lt]
  rfl

theorem addSkillTarget_of_blank (target : Levels) {line : JavaString} (h : trim line = []) :
    addSkillTarget available available.keys.toFinset target line = .ok target := by
  simp [addSkillTarget, h]

theorem addSkillTarget_of_target (target : Levels) {line : JavaString} (hne : trim line ≠ [])
    (h : IsSkillTarget available (trim line)) :
    addSkillTarget available available.keys.toFinset target line =
      .ok (Puts.put target (item available (trim line))) := by
  have hknown : ¬ skillName (trim line) ∉ available.keys.toFinset := by
    rw [not_not, List.mem_toFinset, ← AList.mem_keys]
    exact h.2
  have hlevel : ¬ (lastChar (trim line) < 48 ∨ lastChar (trim line) > 57) := (digit_iff _).mpr h.1
  simp only [addSkillTarget]
  rw [if_neg (by simpa using hne), if_neg hlevel, if_neg hknown]
  rfl

theorem addSkillTarget_of_not (target : Levels) {line : JavaString} (hne : trim line ≠ [])
    (h : ¬ IsSkillTarget available (trim line)) :
    ∃ e, addSkillTarget available available.keys.toFinset target line = .error e := by
  rw [IsSkillTarget, not_and_or, ← digit_iff, not_not] at h
  simp only [addSkillTarget]
  rw [if_neg (by simpa using hne)]
  by_cases hlevel : lastChar (trim line) < 48 ∨ lastChar (trim line) > 57
  · exact ⟨_, if_pos hlevel⟩
  · have hknown : skillName (trim line) ∉ available.keys.toFinset := by
      rw [List.mem_toFinset, ← AList.mem_keys]
      exact h.resolve_left hlevel
    rw [if_neg hlevel, if_pos hknown]
    exact ⟨_, rfl⟩

theorem trimmed_of_blank {line : JavaString} (h : trim line = []) (ls : List JavaString) :
    trimmed (line :: ls) = trimmed ls := by
  rw [trimmed, List.map_cons, List.filter_cons_of_neg (by simpa using h)]
  rfl

theorem trimmed_of_ne {line : JavaString} (h : trim line ≠ []) (ls : List JavaString) :
    trimmed (line :: ls) = trim line :: trimmed ls := by
  rw [trimmed, List.map_cons, List.filter_cons_of_pos (by simpa using h)]
  rfl

/-- The loop, line by line: it puts what each line that is not blank asks for. -/
theorem addSkillTargets_ok : ∀ (ls : List JavaString) (target : Levels),
    (∀ entry ∈ trimmed ls, IsSkillTarget available entry) →
    ls.foldlM (addSkillTarget available available.keys.toFinset) target =
      .ok (((trimmed ls).map (item available)).foldl Puts.put target)
  | [], _, _ => rfl
  | line :: ls, target, h => by
    rw [List.foldlM_cons]
    by_cases hblank : trim line = []
    · rw [trimmed_of_blank hblank] at h ⊢
      rw [addSkillTarget_of_blank target hblank]
      exact addSkillTargets_ok ls target h
    · rw [trimmed_of_ne hblank] at h ⊢
      rw [List.forall_mem_cons] at h
      rw [addSkillTarget_of_target target hblank h.1]
      exact addSkillTargets_ok ls _ h.2

/-- It ends at the first line that cannot be read. -/
theorem addSkillTargets_error : ∀ (ls : List JavaString) (target : Levels),
    ¬ (∀ entry ∈ trimmed ls, IsSkillTarget available entry) →
    ∃ e, ls.foldlM (addSkillTarget available available.keys.toFinset) target = .error e
  | [], _, h => absurd (List.forall_mem_nil _) h
  | line :: ls, target, h => by
    rw [List.foldlM_cons]
    by_cases hblank : trim line = []
    · rw [trimmed_of_blank hblank] at h
      rw [addSkillTarget_of_blank target hblank]
      exact addSkillTargets_error ls target h
    · rw [trimmed_of_ne hblank, List.forall_mem_cons] at h
      by_cases htarget : IsSkillTarget available (trim line)
      · rw [addSkillTarget_of_target target hblank htarget]
        exact addSkillTargets_error ls _ fun hls => h ⟨htarget, hls⟩
      · obtain ⟨e, he⟩ := addSkillTarget_of_not target hblank htarget
        rw [he]
        exact ⟨e, rfl⟩

/-- `split` leaves out empty lines only. -/
theorem trimmed_split (text : JavaString) : trimmed (split (unit '\n') text) = items text := by
  obtain ⟨missing, heq, hmissing⟩ := exists_splitOn_eq (unit '\n') text
  have hnone : (missing.map trim).filter (· ≠ []) = [] := by
    rw [List.filter_eq_nil_iff]
    intro part hpart
    obtain ⟨line, hline, rfl⟩ := List.mem_map.mp hpart
    rw [hmissing line hline]
    decide
  rw [items, lines, heq, trimmed, trimmed, List.map_append, List.filter_append, hnone, List.append_nil]

theorem parseSkillTargets_ok {text : JavaString} (h : ∀ entry ∈ items text, IsSkillTarget available entry) :
    parseSkillTargets available text available.keys.toFinset = .ok (Puts.written (asked available text)) := by
  rw [← trimmed_split] at h
  rw [parseSkillTargets, addSkillTargets_ok _ _ h, trimmed_split]
  rfl

theorem parseSkillTargets_error {text : JavaString} (h : ¬ ∀ entry ∈ items text, IsSkillTarget available entry) :
    ∃ e, parseSkillTargets available text available.keys.toFinset = .error e := by
  rw [← trimmed_split] at h
  exact addSkillTargets_error _ _ h

/-- A skill that is known is not `null`. -/
theorem written_none {text : JavaString} (h : ∀ entry ∈ items text, IsSkillTarget available entry) :
    Puts.written (asked available text) none = none := by
  rcases hw : Puts.written (asked available text) none with - | n
  · rfl
  · obtain ⟨trim, htrim, heq⟩ := List.mem_map.mp (Puts.mem_of_written hw)
    have hlookup : available.lookup (skillName trim) = none := congrArg Prod.fst heq
    exact absurd (h trim htrim).2 (AList.lookup_eq_none.mp hlookup)

end

/-! ### Loading -/

section

variable {order : Finset TargetSlot → List TargetSlot} {available : SkillMap} {config : Config}

/-- The targets the texts come to. -/
def loaded (available : SkillMap) (config : Config) (slotTargets : List TargetSlot) : Targets :=
  ⟨slotTargets, fun skill => Puts.written (asked available config.targetSkills) (some skill)⟩

theorem alerting_ok {α β : Type} (a : α) (f : α → EStateM LoadException Targets β) (t : Targets) :
    (alerting (.ok a) >>= f) t = f a t := rfl

theorem load_of_slots_error {e : AlertErrorException} (hslots : parseSlotTargets config.targetSlots = .error e)
    (t : Targets) : load order available config t = .error (.alert e) { t with slotTargets := [] } := by
  unfold load
  rw [hslots, modify_bind_run]
  rfl

section

variable {slots : Finset TargetSlot} (hslots : parseSlotTargets config.targetSlots = .ok slots) (t : Targets)
include hslots

theorem load_of_no_slot (hempty : order slots = []) : load order available config t =
    .error (.alert ⟨lit "Slot targets is empty!"⟩) { t with slotTargets := [] } := by
  unfold load
  rw [hslots, modify_bind_run, alerting_ok, modify_bind_run, get_bind_run]
  dsimp only
  rw [List.nil_append, if_pos (by simp [hempty]), hempty]
  rfl

variable (hne : order slots ≠ [])
include hne

theorem load_of_skills_error {e : AlertErrorException}
    (hskills : parseSkillTargets available config.targetSkills available.keys.toFinset = .error e) :
    load order available config t = .error (.alert e) ⟨order slots, fun _ => none⟩ := by
  have hfull : ¬ (order slots).isEmpty = true := by simpa using hne
  unfold load
  rw [hslots, modify_bind_run, alerting_ok, modify_bind_run, get_bind_run]
  dsimp only
  rw [List.nil_append, if_neg hfull, modify_bind_run, hskills]
  rfl

theorem load_of_skills {target : Levels}
    (hskills : parseSkillTargets available config.targetSkills available.keys.toFinset = .ok target)
    (hnull : target none = none) :
    load order available config t = .ok () ⟨order slots, fun skill => target (some skill)⟩ := by
  have hfull : ¬ (order slots).isEmpty = true := by simpa using hne
  have hkeys : ¬ (target none).isSome = true := by simp [hnull]
  unfold load
  rw [hslots, modify_bind_run, alerting_ok, modify_bind_run, get_bind_run]
  dsimp only
  rw [List.nil_append, if_neg hfull, modify_bind_run, hskills, alerting_ok, if_neg hkeys, modify_run]
  simp

end

/-- The set visited is empty exactly if every line is blank. -/
theorem order_eq_nil_iff (horder : ∀ slots, (order slots).toFinset = slots) {slots : Finset TargetSlot}
    (hslots : parseSlotTargets config.targetSlots = .ok slots) :
    order slots = [] ↔ ¬ ∃ line ∈ lines config.targetSlots, trim line ≠ [] := by
  have hloaded : Loaded config.targetSlots (order slots) := by rw [Loaded, hslots, horder]
  obtain ⟨-, hmem⟩ := mem_loaded hloaded
  rw [List.eq_nil_iff_forall_not_mem]
  constructor
  · rintro hnone ⟨line, hline, hne⟩
    exact hnone _ ((hmem _).mpr ⟨line, hline, hne, rfl⟩)
  · rintro hnone t ht
    obtain ⟨line, hline, hne, -⟩ := (hmem t).mp ht
    exact hnone ⟨line, hline, hne⟩

theorem load_ok (h : Accepted available config) (horder : ∀ slots, (order slots).toFinset = slots) :
    ∃ slots, parseSlotTargets config.targetSlots = .ok slots ∧
      ∀ t, load order available config t = .ok () (loaded available config (order slots)) := by
  obtain ⟨slots, hslots, -⟩ := parseSlotTargets_ok h.slots
  have hne : order slots ≠ [] := fun hnil => (order_eq_nil_iff horder hslots).mp hnil h.some_slot
  refine ⟨slots, hslots, fun t => ?_⟩
  exact load_of_skills hslots t hne (parseSkillTargets_ok h.skills) (written_none h.skills)

/-- A text that is refused leaves one of the fields empty. -/
theorem load_error (h : ¬ Accepted available config) (horder : ∀ slots, (order slots).toFinset = slots) (t : Targets) :
    ∃ e t', load order available config t = .error (.alert e) t' ∧
      (t'.slotTargets = [] ∨ t'.skillTargets = fun _ => none) := by
  by_cases hfine : ∀ line ∈ lines config.targetSlots, Fine line
  · obtain ⟨slots, hslots, -⟩ := parseSlotTargets_ok hfine
    by_cases hnil : order slots = []
    · exact ⟨_, _, load_of_no_slot hslots t hnil, .inl rfl⟩
    · have hsome := not_not.mp (mt (order_eq_nil_iff horder hslots).mpr hnil)
      have hbad : ¬ ∀ entry ∈ items config.targetSkills, IsSkillTarget available entry :=
        fun hskills => h ⟨hfine, hsome, hskills⟩
      obtain ⟨e, he⟩ := parseSkillTargets_error hbad
      exact ⟨_, _, load_of_skills_error hslots t hnil he, .inr rfl⟩
  · obtain ⟨line, -, hslots⟩ := parseSlotTargets_error hfine
    exact ⟨_, _, load_of_slots_error hslots t, .inl rfl⟩

theorem accepted_iff (horder : ∀ slots, (order slots).toFinset = slots) (t : Targets) :
    Accepted available config ↔ ∃ t', load order available config t = .ok () t' := by
  constructor
  · intro h
    obtain ⟨slots, -, hload⟩ := load_ok h horder
    exact ⟨_, hload t⟩
  · rintro ⟨t', ht'⟩
    by_contra h
    obtain ⟨e, t'', hload, -⟩ := load_error h horder t
    rw [ht'] at hload
    cases hload

end

/-! ### The charms kept -/

theorem checkSkill_iff {skillTargets : JavaString → Option ℤ} {skill1 skill2 : Option JavaString}
    {level1 level2 : Option ℤ} : checkSkill skillTargets skill1 level1 skill2 level2 = true ↔
      (∃ l1, skill1.bind skillTargets = some l1 ∧ l1 ≤ level1.getD 0) ∧
        ∃ l2, skill2.bind skillTargets = some l2 ∧ l2 ≤ level2.getD 0 := by
  unfold checkSkill
  rcases skill1.bind skillTargets with - | l1
  · simp
  · rcases skill2.bind skillTargets with - | l2 <;> simp

theorem wants_iff (available : SkillMap) (text skill : JavaString) (level : Option ℤ) :
    (∃ n, Puts.written (asked available text) (some skill) = some n ∧ n ≤ level.getD 0) ↔
      Wants available text skill level := by
  constructor
  · rintro ⟨n, hn, hle⟩
    obtain ⟨before, after, heq, hafter⟩ := Puts.written_eq_some_iff.mp hn
    exact ⟨before, after, n, heq, hafter, hle⟩
  · rintro ⟨before, after, n, heq, hafter, hle⟩
    exact ⟨n, Puts.written_eq_some_iff.mpr ⟨before, after, heq, hafter⟩, hle⟩

theorem checkSlot_iff {text : JavaString} {slotTargets : List TargetSlot} (h : Loaded text slotTargets) {o1 o2 o3 : ℤ}
    (h12 : o2 ≤ o1) (h23 : o3 ≤ o2) : checkSlot slotTargets o1 o2 o3 = true ↔ Satisfies text o1 o2 o3 := by
  obtain ⟨hfine, hmem⟩ := mem_loaded h
  rw [checkSlot, List.any_eq_true]
  constructor
  · rintro ⟨t, ht, hmatch⟩
    obtain ⟨line, hline, hne, rfl⟩ := (hmem t).mp ht
    exact ⟨line, hline, hne, (isMatch_target ((hfine line hline).resolve_left hne).1 h12 h23).mp hmatch⟩
  · rintro ⟨line, hline, hne, hassign⟩
    exact ⟨_, (hmem _).mpr ⟨line, hline, hne, rfl⟩,
      (isMatch_target ((hfine line hline).resolve_left hne).1 h12 h23).mpr hassign⟩

/-- A charm that is kept has two skills. -/
theorem isTarget_iff (t : Targets) (c : Charm) : isTarget t c = true ↔ c.hasSkill2 = true ∧
    (∃ l1, t.skillTargets c.skill1 = some l1 ∧ l1 ≤ c.level1.getD 0) ∧
    (∃ l2, t.skillTargets c.skill2 = some l2 ∧ l2 ≤ c.level2.getD 0) ∧
    checkSlot t.slotTargets (getMax c.o1L) (getMax c.o2L) (getMax c.o3L) = true := by
  rw [isTarget, Bool.and_eq_true, checkSkill_iff]
  cases c.hasSkill2 <;> simp [and_assoc]

/-- After `load`, whatever became of it and whatever was loaded before, a charm whose slots
descend is kept exactly if both texts can be read, it has two skills, each of them is
asked for, and its slots satisfy a line. -/
theorem target_iff (order : Finset TargetSlot → List TargetSlot) (horder : ∀ slots, (order slots).toFinset = slots)
    (available : SkillMap) (config : Config) (t : Targets) (c : Charm) (h12 : getMax c.o2L ≤ getMax c.o1L)
    (h23 : getMax c.o3L ≤ getMax c.o2L) :
    isTarget (left (load order available config t)) c = true ↔
      Accepted available config ∧ c.hasSkill2 = true ∧
        Wants available config.targetSkills c.skill1 c.level1 ∧
        Wants available config.targetSkills c.skill2 c.level2 ∧
        Satisfies config.targetSlots (getMax c.o1L) (getMax c.o2L) (getMax c.o3L) := by
  by_cases h : Accepted available config
  · obtain ⟨slots, hslots, hload⟩ := load_ok h horder
    have hloaded : Loaded config.targetSlots (order slots) := by rw [Loaded, hslots, horder]
    have hcheck := checkSlot_iff hloaded (Nat.cast_le.mpr h12) (Nat.cast_le.mpr h23)
    rw [hload t, left, isTarget_iff, loaded, wants_iff, wants_iff, hcheck]
    exact (and_iff_right h).symm
  · obtain ⟨e, t', hload, hempty⟩ := load_error h horder t
    rw [hload, left, isTarget_iff]
    constructor
    · rintro ⟨-, ⟨l1, hl1, -⟩, -, hslot⟩
      rcases hempty with hnil | hnone
      · simp [hnil, checkSlot] at hslot
      · simp [hnone] at hl1
    · exact fun hall => absurd hall.1 h

/-- A charm of two skills, with a slot of level 2 and one of level 1. -/
theorem target_iff_two : let config : Config := ⟨lit "Guard1\nFocus2\nGuard3", lit "210"⟩
    let c : Charm := ⟨lit "Focus", some 2, true, lit "Guard", some 3, [0, 1 / 2, 9 / 10], [1 / 2, 9 / 10], [9 / 10]⟩
    (getMax c.o1L = 2 ∧ getMax c.o2L = 1 ∧ getMax c.o3L = 0) ∧
    ∀ t, isTarget (left (load Finset.toList (getAvailableSkills RAW_SKILLS) config t)) c = true ↔
      Accepted (getAvailableSkills RAW_SKILLS) config ∧ c.hasSkill2 = true ∧
        Wants (getAvailableSkills RAW_SKILLS) config.targetSkills c.skill1 c.level1 ∧
        Wants (getAvailableSkills RAW_SKILLS) config.targetSkills c.skill2 c.level2 ∧
        Satisfies config.targetSlots (getMax c.o1L) (getMax c.o2L) (getMax c.o3L) :=
  ⟨by decide +kernel, fun t => target_iff Finset.toList Finset.toList_toFinset _ _ t _ (by decide +kernel) (by decide +kernel)⟩

/-! ### Loading again -/

/-- Skills that are known stay known, under the same names. -/
def Extends (s s' : Script) : Prop :=
  ∀ k v, s.AVAILABLE_SKILLS.lookup k = some v → s'.AVAILABLE_SKILLS.lookup k = some v

theorem extends_step {s₀ s s' : Script} {reading : CharmSkills.Call × Option JavaString} (h : Extends s₀ s)
    (hs : CharmSkills.step s reading = some s') : Extends s₀ s' := by
  obtain rfl := Option.some.inj hs
  intro k v hk
  rcases left_accepts reading.1 reading.2 s with hsame | ⟨text, skill, hnew, -, hput⟩
  · rw [hsame]
    exact h k v hk
  · have hne : k ≠ text := by
      rintro rfl
      exact hnew (AList.lookup_isSome.mp (by rw [h k v hk]; rfl))
    rw [hput, AList.lookup_insert_ne hne]
    exact h k v hk

theorem Extends.lookup_eq {s s' : Script} (h : Extends s s') {k : JavaString} (hk : k ∈ s.AVAILABLE_SKILLS) :
    s'.AVAILABLE_SKILLS.lookup k = s.AVAILABLE_SKILLS.lookup k := by
  obtain ⟨v, hv⟩ := Option.isSome_iff_exists.mp (AList.lookup_isSome.mpr hk)
  rw [hv]
  exact h k v hv

/-- A text that was loaded loads to the same targets after any readings, whatever they
are matched to. -/
theorem load_stable {order : Finset TargetSlot → List TargetSlot} (horder : ∀ slots, (order slots).toFinset = slots)
    {s s' : Script} (h : Reach CharmSkills.step Visits s s') {config : Config} {t t₁ : Targets}
    (hload : load order s.AVAILABLE_SKILLS config t = .ok () t₁) (t' : Targets) :
    load order s'.AVAILABLE_SKILLS config t' = .ok () t₁ := by
  have hext : Extends s s' := h.invariant (fun _ _ hk => hk) fun _ _ _ hs _ hstep => extends_step hs hstep
  have h₀ := (accepted_iff horder t).mpr ⟨t₁, hload⟩
  have hsame : ∀ entry ∈ items config.targetSkills, item s'.AVAILABLE_SKILLS entry = item s.AVAILABLE_SKILLS entry := by
    intro entry hentry
    rw [item, hext.lookup_eq (h₀.skills entry hentry).2, item]
  have h₁ : Accepted s'.AVAILABLE_SKILLS config := by
    refine ⟨h₀.slots, h₀.some_slot, fun entry hentry => ⟨(h₀.skills entry hentry).1, ?_⟩⟩
    rw [← AList.lookup_isSome, hext.lookup_eq (h₀.skills entry hentry).2, AList.lookup_isSome]
    exact (h₀.skills entry hentry).2
  obtain ⟨slots, hslots, hload₀⟩ := load_ok h₀ horder
  obtain ⟨slots', hslots', hload₁⟩ := load_ok h₁ horder
  obtain rfl : slots = slots' := Except.ok.inj (hslots.symm.trans hslots')
  obtain ⟨-, rfl⟩ := EStateM.Result.ok.inj (hload.symm.trans (hload₀ t))
  rw [hload₁ t', loaded, loaded, asked, asked, List.map_congr_left hsame]

theorem accepted_guard : Accepted (start RAW_SKILLS).AVAILABLE_SKILLS ⟨lit "Guard1", lit "210"⟩ := by
  have hslots : lines (lit "210") = [lit "210"] := by decide
  have hskills : items (lit "Guard1") = [lit "Guard1"] := by decide
  have hlevels : ∀ c ∈ trim (lit "210"), IsLevel c := by
    rw [show trim (lit "210") = [unit '2', unit '1', unit '0'] by decide]
    simp [IsLevel, unit]
  have hguard : convertEnglishSkill (lit "Guard") ∈ RAW_SKILLS.map convertEnglishSkill :=
    List.mem_map_of_mem (mem_raw "Guard" (by decide))
  refine ⟨?_, ?_, ?_⟩
  · rw [hslots, List.forall_mem_singleton]
    exact .inr ⟨by decide, hlevels⟩
  · exact ⟨lit "210", by simp [hslots], by decide⟩
  · rw [hskills, List.forall_mem_singleton]
    refine ⟨by decide, ((mem_getAvailableSkills (List.Perm.refl _)).1 _).mpr ?_⟩
    exact List.mem_cons_of_mem _ (List.mem_cons_of_mem _ hguard)

/-- The text that asks for `Guard`, before and after a reading. -/
theorem load_stable_misread : ∃ t₁, ∀ t t',
    load Finset.toList (start RAW_SKILLS).AVAILABLE_SKILLS ⟨lit "Guard1", lit "210"⟩ t = .ok () t₁ ∧
    load Finset.toList misread.AVAILABLE_SKILLS ⟨lit "Guard1", lit "210"⟩ t' = .ok () t₁ := by
  obtain ⟨slots, -, hload⟩ := load_ok accepted_guard Finset.toList_toFinset
  have hreach : Reach CharmSkills.step Visits (start RAW_SKILLS) misread := .step misreading .start (List.Perm.refl _) rfl
  exact ⟨_, fun t t' => ⟨hload t, load_stable Finset.toList_toFinset hreach (hload t) t'⟩⟩

end CharmTargets
end PGCon

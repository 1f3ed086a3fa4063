/-
# Overlapping holds

A control may be asked for again while it is held. `ControllerService` keeps one
expiry for it, and these are the laws of it, over every run of presses, holds,
releases and turns of the daemon, none of which asks for the expiry 0:

* a button's expiry is the latest one asked for since its last release, and the
  calls made for it on the protocol are hold and release in turn;
* the hat and each stick keep the latest expiry over the last requests that name
  the direction in force;
* the daemon releases a control exactly when its expiry is not in the future, and
  leaves all others as they are.

The history of requests is not part of the program. It is kept beside it, and a
control's history ends where a call releases it or the daemon clears its expiry.
The last law is about every expiry but 0: one that lies before the epoch is due
like any other that has passed (`due_negative`).
-/
import PGCon.Machine
import PGCon.DueRelease

namespace PGCon
namespace Merging

open Effect Machine ControllerService Requests DueRelease

/-! ### Calls in turn -/

section Calls

variable {O : Type}

/-- A call that holds or releases this button. -/
def About (b : Button) (c : Call O) : Prop := c = .hold b ∨ c = .release (some b)

instance [DecidableEq O] (b : Button) (c : Call O) : Decidable (About b c) :=
  inferInstanceAs (Decidable (c = .hold b ∨ c = .release (some b)))

@[simp] theorem about_hold (b a : Button) : About b (Call.hold a : Call O) ↔ a = b := by
  simp [About]

@[simp] theorem about_release (b a : Button) : About b (Call.release (some a) : Call O) ↔ a = b := by
  simp [About]

@[simp] theorem not_about_set (b : Button) (a : StickObject O) : ¬ About b (Call.set a) := by
  simp [About]

variable [DecidableEq O]

/-- The calls about a button, and whether they leave it held. -/
structure Switched (b : Button) (calls : List (Call O)) (e : ℤ) : Prop where
  alternates : Alternates (.hold b) (.release (some b)) (calls.filter fun c => About b c)
  parity : (calls.filter fun c => About b c).length % 2 = 0 ↔ e = 0

variable {b : Button} {calls more : List (Call O)} {e e' : ℤ}

theorem Switched.quiet (h : Switched b calls e) (hmore : ∀ c ∈ more, ¬ About b c) (he : e' = 0 ↔ e = 0) :
    Switched b (calls ++ more) e' := by
  have hnone : (more.filter fun c => About b c) = [] := List.filter_eq_nil_iff.mpr (by simpa using hmore)
  have hfilter : ((calls ++ more).filter fun c => About b c) = calls.filter fun c => About b c := by
    rw [List.filter_append, hnone, List.append_nil]
  exact ⟨by rw [hfilter]; exact h.alternates, by rw [hfilter, he]; exact h.parity⟩

theorem Switched.call (h : Switched b calls e) {c : Call O} (hc : About b c)
    (hturn : c = if e = 0 then .hold b else .release (some b)) (he : e' = 0 ↔ e ≠ 0) :
    Switched b (calls ++ [c]) e' := by
  have hfilter : ((calls ++ [c]).filter fun c => About b c) = (calls.filter fun c => About b c) ++ [c] := by
    rw [List.filter_append, List.filter_cons_of_pos (by simpa using hc), List.filter_nil]
  have hparity := h.parity
  constructor
  · rw [hfilter]
    refine h.alternates.append ?_
    rw [hturn]
    exact if_congr hparity.symm rfl rfl
  · rw [hfilter, List.length_append, List.length_singleton, he, ne_eq, ← hparity]
    omega

theorem Switched.hold (h : Switched b calls 0) (he : e ≠ 0) : Switched b (calls ++ [.hold b]) e :=
  h.call (.inl rfl) (if_pos rfl).symm (by simpa using he)

theorem Switched.release (h : Switched b calls e) (he : e ≠ 0) : Switched b (calls ++ [.release (some b)]) 0 :=
  h.call (.inr rfl) (if_neg he).symm (by simpa using he)

/-- Each of some buttons is released, among them perhaps this one. -/
theorem Switched.releases (h : Switched b calls e) {l : List Button} (hl : l.Nodup) (he : b ∈ l → e ≠ 0) :
    Switched b (calls ++ l.map fun a => .release (some a)) (if b ∈ l then 0 else e) := by
  induction l generalizing calls e with
  | nil => simpa using h
  | cons a l ih =>
    obtain ⟨ha, hl⟩ := List.nodup_cons.mp hl
    rw [List.map_cons, ← List.singleton_append, ← List.append_assoc]
    by_cases hab : a = b
    · subst hab
      have hrest := ih (h.release (he List.mem_cons_self)) hl fun hb => absurd hb ha
      rw [ite_self] at hrest
      rwa [if_pos List.mem_cons_self]
    · have hquiet : Switched b (calls ++ [.release (some a)]) e :=
        h.quiet (by simpa using hab) Iff.rfl
      have hrest := ih hquiet hl fun hb => he (List.mem_cons_of_mem a hb)
      simpa [Ne.symm hab] using hrest

end Calls

/-! ### Runs -/

/-- What a call comes to. -/
inductive Basic (O : Type)
  | holdButton (b : Button) (e : ℤ)
  | releaseButton (b : Button)
  | holdStick (a : StickObject O) (e : ℤ)
  | releaseStick (a : StickObject O)
  | autoRelease (stickNow : Sticks → ℤ) (buttonNow : Button → ℤ)

variable {P O : Type} [Stick O] [DecidableEq O] [Protocol P O]

def Basic.exec : Basic O → Java (ControllerService P O) Unit
  | .holdButton b e => checkAndHoldButton b e
  | .releaseButton b => ControllerService.releaseButton b
  | .holdStick a e => checkAndHoldStick a e
  | .releaseStick a => ControllerService.releaseStick a
  | .autoRelease stickNow buttonNow => ControllerService.autoRelease stickNow buttonNow

def basic (pressTime : ℤ) : Op O → Basic O
  | .pressButton b now => .holdButton b (addLong now pressTime)
  | .holdButtonFor b duration now => .holdButton b (addLong now duration)
  | .holdButton b => .holdButton b maxLong
  | .releaseButton b => .releaseButton b
  | .pressStick a now => .holdStick a (addLong now pressTime)
  | .holdStickFor a duration now => .holdStick a (addLong now duration)
  | .holdStick a => .holdStick a maxLong
  | .releaseStick a => .releaseStick a
  | .autoRelease stickNow buttonNow => .autoRelease stickNow buttonNow

theorem exec_basic (op : Op O) (c : ControllerService P O) : op.exec c = (basic c.pressTime op).exec c := by
  cases op <;> rfl

/-- The controller, and for every slot the requests since it was last released. -/
structure State (P O : Type) where
  service : ControllerService (Logged P O) O
  buttonRequests : Button → List (Button × ℤ)
  stickRequests : Sticks → List (StickObject O × ℤ)

/-- The requests after a call: one more if it holds the control; none if it releases
it, or if it is the daemon and the expiry is gone. -/
def noteButtons (before after : ControllerService P O) (requests : Button → List (Button × ℤ)) :
    Basic O → Button → List (Button × ℤ)
  | .holdButton b e =>
    Function.update requests (getExpireTimeIndex b) (requests (getExpireTimeIndex b) ++ [(b, e)])
  | .releaseButton b => Function.update requests (getExpireTimeIndex b) []
  | .autoRelease _ _ => fun i =>
    if before.buttonExpired i ≠ 0 ∧ after.buttonExpired i = 0 then [] else requests i
  | _ => requests

def noteSticks (before after : ControllerService P O) (requests : Sticks → List (StickObject O × ℤ)) :
    Basic O → Sticks → List (StickObject O × ℤ)
  | .holdStick a e => Function.update requests (getStick a) (requests (getStick a) ++ [(a, e)])
  | .releaseStick a => Function.update requests (getStick a) []
  | .autoRelease _ _ => fun i =>
    if before.stickExpired i ≠ 0 ∧ after.stickExpired i = 0 then [] else requests i
  | _ => requests

/-- A call, whether it returns or throws. -/
def step (s : State P O) (op : Op O) : Option (State P O) :=
  some {
    service := left (op.exec s.service)
    buttonRequests := noteButtons s.service (left (op.exec s.service)) s.buttonRequests
      (basic s.service.pressTime op)
    stickRequests := noteSticks s.service (left (op.exec s.service)) s.stickRequests
      (basic s.service.pressTime op) }

/-- A new controller, with or without a protocol. -/
def start (pressTime : ℤ) (p : Option P) : State P O where
  service := { (init pressTime : ControllerService (Logged P O) O) with protocol := p.map fun q => ⟨q, []⟩ }
  buttonRequests _ := []
  stickRequests _ := []

/-- No control is asked for until 0. -/
def Timed (s : State P O) (op : Op O) : Prop := op.expiry s.service.pressTime ≠ some 0

instance : DecidableRel (Timed (P := P) (O := O)) := fun s op =>
  inferInstanceAs (Decidable (op.expiry s.service.pressTime ≠ some 0))

/-! ### What every run keeps -/

/-- The slots, and the calls made, are what the requests come to. -/
structure Inv (s : State P O) : Prop where
  shared : HatShared s.service
  own : ∀ i, ∀ r ∈ s.buttonRequests i, getExpireTimeIndex r.1 = i
  slots : ∀ i, i = .D_TOP ∨ NonHat i → Kept (s.buttonRequests i) (s.service.buttonExpired i)
  hat : s.service.hatDirections = direction (s.buttonRequests .D_TOP)
  sticks : ∀ i, Kept (s.stickRequests i) (s.service.stickExpired i)
  stick : ∀ i d, direction (s.stickRequests i) = some d → s.service.stickDirections i = d
  calls : ∀ b, NonHat b → ∀ p ∈ s.service.protocol, Switched b p.calls (s.service.buttonExpired b)

omit [Stick O] [Protocol P O] in
theorem inv_start (pressTime : ℤ) (p : Option P) : Inv (start pressTime p : State P O) where
  shared _ _ _ := rfl
  own _ := nofun
  slots _ _ := Kept.nil
  hat := rfl
  sticks _ := Kept.nil
  stick _ _ := nofun
  calls b _ p hp := by
    obtain ⟨q, -, rfl⟩ := Option.mem_map.mp hp
    exact ⟨Alternates.nil, iff_of_true rfl rfl⟩

theorem slot_index (b : Button) : getExpireTimeIndex b = .D_TOP ∨ NonHat (getExpireTimeIndex b) := by
  unfold getExpireTimeIndex
  split
  · exact .inl rfl
  · exact .inr (Bool.eq_false_iff.mpr ‹_›)

theorem eq_of_index {b i : Button} (h : getExpireTimeIndex b = i) (hi : NonHat i) : b = i := by
  by_cases hb : b.isHat = true
  · exact absurd ((index_hat hb).symm.trans h).symm (nonHat_ne_top hi)
  · rw [← h, index_nonHat (Bool.eq_false_iff.mpr hb)]

theorem isHat_of_index {b : Button} (h : getExpireTimeIndex b = .D_TOP) : b.isHat = true := by
  by_contra hb
  rw [index_nonHat (Bool.eq_false_iff.mpr hb)] at h
  rw [h] at hb
  exact hb rfl

omit [Stick O] [Protocol P O] in
/-- Only the hat's slot is asked for by two buttons. -/
theorem Inv.isHat_of_direction {s : State P O} (h : Inv s) {b d : Button}
    (hd : direction (s.buttonRequests (getExpireTimeIndex b)) = some d) (hdb : d ≠ b) :
    b.isHat = true ∧ d.isHat = true := by
  obtain ⟨r, hr, rfl⟩ := mem_of_direction hd
  have hindex := h.own _ r hr
  have hb : b.isHat = true := by
    by_contra hb
    have hb' : NonHat b := Bool.eq_false_iff.mpr hb
    rw [index_nonHat hb'] at hindex
    exact hdb (eq_of_index hindex hb')
  exact ⟨hb, isHat_of_index (hindex.trans (index_hat hb))⟩

omit [Stick O] [Protocol P O] in
/-- The slot of a button changes, with calls about that button only, or about hat
directions. -/
theorem Inv.buttonTo {s : State P O} (h : Inv s) (b : Button) {e : ℤ} {l : List (Button × ℤ)} {d : Option Button}
    {f : Logged P O → Logged P O} {more : List (Call O)} (hf : ∀ p, (f p).calls = p.calls ++ more)
    (hkept : Kept l e) (hown : ∀ r ∈ l, getExpireTimeIndex r.1 = getExpireTimeIndex b)
    (hhat : b.isHat = true → d = direction l) (hnon : NonHat b → d = s.service.hatDirections)
    (hmine : NonHat b → ∀ p ∈ s.service.protocol, Switched b (p.calls ++ more) e)
    (hothers : ∀ b', NonHat b' → b' ≠ b → ∀ c ∈ more, ¬ About b' c) :
    Inv { s with
      service := { s.service with
        buttonExpired := Function.update s.service.buttonExpired (getExpireTimeIndex b) e
        protocol := s.service.protocol.map f
        hatDirections := d }
      buttonRequests := Function.update s.buttonRequests (getExpireTimeIndex b) l } where
  shared b' hb' hne := by
    have hne' : b' ≠ getExpireTimeIndex b := by
      rintro rfl
      rcases slot_index b with ht | hn
      · exact hne ht
      · rw [hn] at hb'
        cases hb'
    exact (Function.update_of_ne hne' _ _).trans (h.shared b' hb' hne)
  own i r hr := by
    dsimp only at hr
    by_cases hi : i = getExpireTimeIndex b
    · subst hi
      rw [Function.update_self] at hr
      exact hown r hr
    · rw [Function.update_of_ne hi] at hr
      exact h.own i r hr
  slots i hi := by
    by_cases hib : i = getExpireTimeIndex b
    · subst hib
      simpa using hkept
    · simpa [Function.update_of_ne hib] using h.slots i hi
  hat := by
    dsimp only
    by_cases hb : b.isHat = true
    · rw [index_hat hb, Function.update_self]
      exact hhat hb
    · have hb' : NonHat b := Bool.eq_false_iff.mpr hb
      rw [index_nonHat hb', Function.update_of_ne (nonHat_ne_top hb').symm]
      exact (hnon hb').trans h.hat
  sticks := h.sticks
  stick := h.stick
  calls b' hb' p hp := by
    obtain ⟨q, hq, rfl⟩ := Option.mem_map.mp hp
    dsimp only
    rw [hf]
    by_cases hbb : b' = b
    · subst hbb
      rw [index_nonHat hb', Function.update_self]
      exact hmine hb' q hq
    · have hne : b' ≠ getExpireTimeIndex b := fun he => hbb (eq_of_index he.symm hb').symm
      rw [Function.update_of_ne hne]
      exact (h.calls b' hb' q hq).quiet (hothers b' hb' hbb) Iff.rfl

theorem merged_eq_max (old new : ℤ) : merged old new = max old new := by
  unfold merged
  rw [max_def]
  split <;> split <;> omega

omit [Stick O] [Protocol P O] [DecidableEq O] in
theorem own_append {l : List (Button × ℤ)} {i : Button} (h : ∀ r ∈ l, getExpireTimeIndex r.1 = i) {b : Button}
    (hb : getExpireTimeIndex b = i) (e : ℤ) : ∀ r ∈ l ++ [(b, e)], getExpireTimeIndex r.1 = i := by
  intro r hr
  rcases List.mem_append.mp hr with hr | hr
  · exact h r hr
  · rw [List.mem_singleton.mp hr]
    exact hb

variable [Reliable P O]

omit [Stick O] in
/-- A press or hold of a button, or of a hat direction. -/
theorem inv_holdButton {s : State P O} (h : Inv s) (b : Button) {e : ℤ} (he : e ≠ 0) :
    ∃ c, checkAndHoldButton b e s.service = .ok () c ∧ Inv { s with
      service := c
      buttonRequests := Function.update s.buttonRequests (getExpireTimeIndex b)
        (s.buttonRequests (getExpireTimeIndex b) ++ [(b, e)]) } := by
  have hkept := h.slots (getExpireTimeIndex b) (slot_index b)
  have hown := own_append (h.own (getExpireTimeIndex b)) (b := b) rfl e
  by_cases h0 : s.service.buttonExpired (getExpireTimeIndex b) = 0
  · -- the first request
    have hnone : direction (s.buttonRequests (getExpireTimeIndex b)) ≠ some b := by
      rw [hkept.eq_zero_iff.mp h0]
      nofun
    refine ⟨_, checkAndHoldButton_first b e s.service h0, ?_⟩
    refine h.buttonTo b (fun p => rfl) (hkept.new hnone he) hown ?_ ?_ ?_ ?_
    · intro hb
      rw [if_pos hb, direction_append]
    · intro hb
      exact if_neg (Bool.eq_false_iff.mp hb)
    · intro hb p hp
      have hsw := h.calls b hb p hp
      rw [index_nonHat hb] at h0
      rw [h0] at hsw
      exact hsw.hold he
    · rintro b' - hne c hc
      rw [List.mem_singleton.mp hc, about_hold]
      exact hne.symm
  · obtain ⟨d, hd⟩ := hkept.direction_isSome h0
    have hforce : b.isHat = true → s.service.hatDirections = some d := by
      intro hb
      rw [h.hat, ← index_hat hb, hd]
    by_cases hdb : d = b
    · -- the direction in force
      subst hdb
      refine ⟨_, checkAndHoldButton_again d e s.service h0 hforce, ?_⟩
      have hto := h.buttonTo d (fun p => (List.append_nil (id p).calls).symm) (hkept.same hd he) hown
        (fun hb => by rw [direction_append]; exact hforce hb) (fun _ => rfl) ?_ (by simp)
      · rw [Option.map_id, id, ← merged_eq_max] at hto
        exact hto
      · intro hb p hp
        rw [index_nonHat hb] at h0 ⊢
        refine (h.calls d hb p hp).quiet (by simp) (iff_of_false ?_ h0)
        rw [← merged_eq_max]
        exact merged_ne_zero h0 he
    · -- another direction, so it is the hat's
      obtain ⟨hb, hd'⟩ := h.isHat_of_direction hd hdb
      have hnotNon : ¬ NonHat b := fun hn => by
        rw [hn] at hb
        cases hb
      refine ⟨_, checkAndHoldButton_change e s.service h0 hb (hforce hb) hdb, ?_⟩
      refine h.buttonTo b (fun p => List.append_assoc _ _ _) (hkept.new (by rw [hd]; simpa using hdb) he) hown ?_
        (fun hn => absurd hn hnotNon) (fun hn => absurd hn hnotNon) ?_
      · intro _
        rw [direction_append]
      · intro b' hb' hne c hc
        rcases List.mem_append.mp hc with hc | hc
        · rw [List.mem_singleton.mp hc, about_release]
          rintro rfl
          rw [hb'] at hd'
          cases hd'
        · rw [List.mem_singleton.mp hc, about_hold]
          exact hne.symm

omit [Stick O] in
/-- A release of a button, or of a hat direction. -/
theorem inv_releaseButton {s : State P O} (h : Inv s) (b : Button) :
    ∃ c, releaseButton b s.service = .ok () c ∧ Inv { s with
      service := c
      buttonRequests := Function.update s.buttonRequests (getExpireTimeIndex b) [] } := by
  have hkept := h.slots (getExpireTimeIndex b) (slot_index b)
  by_cases h0 : s.service.buttonExpired (getExpireTimeIndex b) = 0
  · refine ⟨_, releaseButton_idle b s.service h0, ?_⟩
    rw [← hkept.eq_zero_iff.mp h0, Function.update_eq_self]
    exact h
  · refine ⟨_, releaseButton_held b s.service h0, ?_⟩
    refine h.buttonTo b (fun p => rfl) Kept.nil (by simp) ?_ ?_ ?_ ?_
    · intro hb
      exact if_pos hb
    · intro hb
      exact if_neg (Bool.eq_false_iff.mp hb)
    · intro hb p hp
      rw [index_nonHat hb] at h0
      exact (h.calls b hb p hp).release h0
    · intro b' _ hne c hc
      rw [List.mem_singleton.mp hc, about_release]
      exact hne.symm

omit [Protocol P O] [Reliable P O] in
/-- The slot of a stick changes, with calls that set sticks. -/
theorem Inv.stickTo {s : State P O} (h : Inv s) (a : StickObject O) {e : ℤ} {l : List (StickObject O × ℤ)}
    {d : StickObject O} {f : Logged P O → Logged P O} {more : List (Call O)}
    (hf : ∀ p, (f p).calls = p.calls ++ more) (hkept : Kept l e) (hd : ∀ d', direction l = some d' → d = d')
    (hmore : ∀ c ∈ more, ∃ a', c = .set a') :
    Inv { s with
      service := { s.service with
        stickExpired := Function.update s.service.stickExpired (getStick a) e
        protocol := s.service.protocol.map f
        stickDirections := Function.update s.service.stickDirections (getStick a) d }
      stickRequests := Function.update s.stickRequests (getStick a) l } where
  shared := h.shared
  own := h.own
  slots := h.slots
  hat := h.hat
  sticks i := by
    by_cases hi : i = getStick a
    · subst hi
      simpa using hkept
    · simpa [Function.update_of_ne hi] using h.sticks i
  stick i d' hd' := by
    dsimp only at hd' ⊢
    by_cases hi : i = getStick a
    · subst hi
      rw [Function.update_self] at hd' ⊢
      exact hd d' hd'
    · rw [Function.update_of_ne hi] at hd' ⊢
      exact h.stick i d' hd'
  calls b hb p hp := by
    obtain ⟨q, hq, rfl⟩ := Option.mem_map.mp hp
    dsimp only
    rw [hf]
    refine (h.calls b hb q hq).quiet (fun c hc => ?_) Iff.rfl
    obtain ⟨a', rfl⟩ := hmore c hc
    exact not_about_set b a'

/-- A press or hold of a stick. -/
theorem inv_holdStick {s : State P O} (h : Inv s) (a : StickObject O) {e : ℤ} (he : e ≠ 0) :
    ∃ c, checkAndHoldStick a e s.service = .ok () c ∧ Inv { s with
      service := c
      stickRequests := Function.update s.stickRequests (getStick a) (s.stickRequests (getStick a) ++ [(a, e)]) } := by
  have hkept := h.sticks (getStick a)
  have hdir : ∀ d', direction (s.stickRequests (getStick a) ++ [(a, e)]) = some d' → a = d' := by
    intro d' hd'
    rw [direction_append] at hd'
    exact Option.some.inj hd'
  by_cases hd : direction (s.stickRequests (getStick a)) = some a
  · -- the object in force
    have h0 : s.service.stickExpired (getStick a) ≠ 0 := by
      rw [ne_eq, hkept.eq_zero_iff, ← direction_eq_none, hd]
      nofun
    refine ⟨_, checkAndHoldStick_again a e s.service h0 (h.stick _ a hd), ?_⟩
    have hto := h.stickTo a (fun p => (List.append_nil (id p).calls).symm) (hkept.same hd he) hdir (by simp)
    rw [Option.map_id, id, ← merged_eq_max] at hto
    exact hto
  · -- the first request, or another object
    have hnew : s.service.stickExpired (getStick a) = 0 ∨ s.service.stickDirections (getStick a) ≠ a := by
      by_cases h0 : s.service.stickExpired (getStick a) = 0
      · exact .inl h0
      · obtain ⟨d, hd'⟩ := hkept.direction_isSome h0
        refine .inr fun hda => hd ?_
        rw [hd', ← h.stick _ d hd', hda]
    refine ⟨_, checkAndHoldStick_new a e s.service hnew, ?_⟩
    exact h.stickTo a (fun p => rfl) (hkept.new hd he) hdir (by simp)

/-- A release of a stick. -/
theorem inv_releaseStick {s : State P O} (h : Inv s) (a : StickObject O) :
    ∃ c, releaseStick a s.service = .ok () c ∧ Inv { s with
      service := c
      stickRequests := Function.update s.stickRequests (getStick a) [] } := by
  have hkept := h.sticks (getStick a)
  by_cases h0 : s.service.stickExpired (getStick a) = 0
  · refine ⟨_, releaseStick_idle a s.service h0, ?_⟩
    rw [← hkept.eq_zero_iff.mp h0, Function.update_eq_self]
    exact h
  · refine ⟨_, releaseStick_held a s.service h0, ?_⟩
    exact h.stickTo a (fun p => rfl) Kept.nil nofun (by simp)

omit [Stick O] [Protocol P O] [Reliable P O] in
/-- The daemon's turn. -/
theorem Inv.releasesDue {s : State P O} (h : Inv s) {stickNow : Sticks → ℤ} {buttonNow : Button → ℤ}
    {c : ControllerService (Logged P O) O} (hc : ReleasesDue stickNow buttonNow s.service c) :
    Inv {
      service := c
      buttonRequests := fun i =>
        if s.service.buttonExpired i ≠ 0 ∧ c.buttonExpired i = 0 then [] else s.buttonRequests i
      stickRequests := fun i =>
        if s.service.stickExpired i ≠ 0 ∧ c.stickExpired i = 0 then [] else s.stickRequests i } where
  shared b hb hne := by
    rw [hc.buttonExpired, h.shared b hb hne, ite_self]
  own i r hr := by
    dsimp only at hr
    split at hr
    · cases hr
    · exact h.own i r hr
  slots i hi := (h.slots i hi).release (hc.buttonExpired i)
  hat := by
    dsimp only
    rw [hc.hatDirections, if_congr (released_iff (hc.buttonExpired .D_TOP)) rfl rfl, h.hat]
    split <;> rfl
  sticks i := (h.sticks i).release (hc.stickExpired i)
  stick i d hd := by
    dsimp only at hd ⊢
    rw [if_congr (released_iff (hc.stickExpired i)) rfl rfl] at hd
    rw [hc.stickDirections]
    split at hd
    · cases hd
    · rename_i hdue
      rw [if_neg hdue]
      exact h.stick i d hd
  calls b hb p hp := by
    have hcalls := hc.calls
    rw [Option.mem_def.mp hp, Option.map_some] at hcalls
    obtain ⟨log, hlog, hmore⟩ := Option.map_eq_some_iff.mp hcalls.symm
    obtain ⟨q, hq, rfl⟩ := Option.map_eq_some_iff.mp hlog
    have hmem : b ∈ (NintendoSwitchStandardButton.values.filter fun b =>
        Due (buttonNow b) (s.service.buttonExpired b)) ↔ Due (buttonNow b) (s.service.buttonExpired b) := by
      simp [NintendoSwitchStandardButton.mem_values]
    have hnodup : NintendoSwitchStandardButton.values.Nodup := by decide
    dsimp only
    rw [← hmore, dueCalls, ← List.append_assoc, hc.buttonExpired, ← if_congr hmem rfl rfl]
    refine Switched.releases (Switched.quiet (h.calls b hb q hq) ?_ Iff.rfl) (hnodup.filter _) fun hb => ?_
    · intro x hx
      obtain ⟨i, -, rfl⟩ := List.mem_map.mp hx
      exact not_about_set b _
    · exact (hmem.mp hb).1

/-- Every call returns, and keeps the slots what the requests come to. -/
theorem inv_exec {s : State P O} (h : Inv s) {op : Op O} (hop : Timed s op) :
    ∃ c, op.exec s.service = .ok () c ∧ Inv {
      service := c
      buttonRequests := noteButtons s.service c s.buttonRequests (basic s.service.pressTime op)
      stickRequests := noteSticks s.service c s.stickRequests (basic s.service.pressTime op) } := by
  have he : ∀ e, op.expiry s.service.pressTime = some e → e ≠ 0 := by
    rintro e hexp rfl
    exact hop hexp
  rw [exec_basic]
  cases op with
  | pressButton b now => exact inv_holdButton h b (he _ rfl)
  | holdButtonFor b duration now => exact inv_holdButton h b (he _ rfl)
  | holdButton b => exact inv_holdButton h b (he _ rfl)
  | releaseButton b => exact inv_releaseButton h b
  | pressStick a now => exact inv_holdStick h a (he _ rfl)
  | holdStickFor a duration now => exact inv_holdStick h a (he _ rfl)
  | holdStick a => exact inv_holdStick h a (he _ rfl)
  | releaseStick a => exact inv_releaseStick h a
  | autoRelease stickNow buttonNow =>
    obtain ⟨c, hrun, hc⟩ := autoRelease_spec stickNow buttonNow h.shared
    exact ⟨c, hrun, h.releasesDue hc⟩

theorem inv_step (s : State P O) (op : Op O) (s' : State P O) (h : Inv s) (hop : Timed s op)
    (hs : step s op = some s') : Inv s' := by
  obtain ⟨c, hrun, hinv⟩ := inv_exec h hop
  obtain rfl := Option.some.inj hs
  rw [hrun]
  exact hinv

/-- The laws of overlapping holds. In every run that asks for no expiry 0, with any
reliable protocol attached or with none: every call returns; a button's expiry is
the latest asked for since its last release, 0 if there is none, and the calls about
it are hold and release in turn; the hat and each stick keep the latest expiry over
the longest suffix of requests that name one direction; and the daemon releases
exactly the controls whose expiry is neither 0 nor in the future. -/
theorem merges_and_releases {pressTime : ℤ} {p : Option P} {s : State P O}
    (h : Reach step Timed (start pressTime p) s) :
    (∀ op, Timed s op → answer (op.exec s.service) = .ok ()) ∧
    (∀ b, NonHat b → s.service.buttonExpired b = latest ((s.buttonRequests b).map Prod.snd)) ∧
    (∀ b, NonHat b → ∀ q ∈ s.service.protocol,
      Alternates (.hold b) (.release (some b)) (q.calls.filter fun c => About b c)) ∧
    s.service.buttonExpired .D_TOP = expiry (s.buttonRequests .D_TOP) ∧
    (∀ i, s.service.stickExpired i = expiry (s.stickRequests i)) ∧
    ∀ now : ℤ, ReleasesDue (fun _ => now) (fun _ => now) s.service
      (left (autoRelease (fun _ => now) (fun _ => now) s.service)) := by
  have hinv : Inv s := h.invariant (inv_start pressTime p) inv_step
  refine ⟨?_, ?_, ?_, ?_, ?_, ?_⟩
  · intro op hop
    obtain ⟨c, hrun, -⟩ := inv_exec hinv hop
    rw [hrun]
    rfl
  · intro b hb
    have hone : ∀ r ∈ s.buttonRequests b, r.1 = b := fun r hr => eq_of_index (hinv.own b r hr) hb
    rw [(hinv.slots b (.inr hb)).expiry_eq, expiry, lastRun_of_one hone]
  · exact fun b hb q hq => (hinv.calls b hb q hq).alternates
  · exact (hinv.slots .D_TOP (.inl rfl)).expiry_eq
  · exact fun i => (hinv.sticks i).expiry_eq
  · intro now
    obtain ⟨c, hrun, hc⟩ := autoRelease_spec (fun _ => now) (fun _ => now) hinv.shared
    rw [hrun]
    exact hc

/-- `A` asked for until 7, 12 and 9 is held until 12. -/
theorem merges_and_releases_thrice : ∃ s : State (Pad Empty) Empty,
    Reach step Timed (start 100 (some Pad.neutral)) s ∧ s.buttonRequests .A = [(.A, 7), (.A, 12), (.A, 9)] ∧
      s.service.buttonExpired .A = 12 := by
  have hr : Reach step Timed (start 100 (some Pad.neutral) : State (Pad Empty) Empty) _ :=
    reach_of_run [.holdButtonFor .A 5 2, .holdButtonFor .A 8 4, .holdButtonFor .A 3 6] .start rfl
  have hlaws := merges_and_releases hr
  exact ⟨_, hr, rfl, (hlaws.2.1 .A rfl).trans rfl⟩

/-- `A` held for -7 ms at the clock reading 2: the expiry -5 has passed, and the
daemon releases it. -/
theorem due_negative : ¬ ∀ s : State (Pad Empty) Empty, Reach step Timed (start 100 (some Pad.neutral)) s →
    ∀ (now : ℤ) (b : Button), NonHat b →
      (left (autoRelease (fun _ => now) (fun _ => now) s.service)).buttonExpired b =
        if 0 < s.service.buttonExpired b ∧ s.service.buttonExpired b ≤ now then 0 else s.service.buttonExpired b := by
  intro h
  have hr : Reach step Timed (start 100 (some Pad.neutral) : State (Pad Empty) Empty) _ :=
    reach_of_run [.holdButtonFor .A (-7) 2] .start rfl
  have hA := h _ hr 2 .A rfl
  exact absurd hA (by decide)

end Merging
end PGCon

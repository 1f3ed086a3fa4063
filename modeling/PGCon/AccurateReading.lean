/-
# Accurate readings

`detectAccurateNumber` and `detectAccurate` read a text again and again and take the
first value read `count` times. The votes are counted in a map the checker of `until`
captures, so what the two methods do rests on how often and in which order the loop
calls supplier, checker, clock and action.

`loop_run` follows the loop check by check. At check `n` the map holds the tallies of
the first `n` votes, and the loop ends there if vote `n` elects a value or, with a
timeout set, if the clock has run out.
-/
import PGCon.Engine
import PGCon.Voting
import PGCon.Word

namespace PGCon
namespace Engine

open Effect Voting Word

/-! ### What a text says -/

/-- `String.trim()`: no characters up to U+0020 at either end. -/
def trim (text : List Char) : List Char :=
  ((text.dropWhile (· ≤ ' ')).reverse.dropWhile (· ≤ ' ')).reverse

/-- `OCR.Result.getTextWithoutSpace()`. -/
def getTextWithoutSpace (text : String) : String :=
  String.ofList (((trim text.toList).filter (· ≠ ' ')).filter (· ≠ '\n'))

/-- The digits of a number, and at least one of them. -/
def parseDigits (digit : Char → Option ℕ) : List Char → Option ℕ
  | [] => none
  | c :: cs => ((c :: cs).mapM digit).map fun digits => digits.foldl (fun n d => 10 * n + d) 0

/-- `Long.parseLong`; `none` is a `NumberFormatException`. -/
def parseLong (digit : Char → Option ℕ) (s : String) : Option ℤ :=
  match s.toList with
  | [] => none
  | '-' :: cs => (parseDigits digit cs).bind fun n => if n ≤ 2 ^ 63 then some (-n) else none
  | '+' :: cs => (parseDigits digit cs).bind fun n => if n < 2 ^ 63 then some n else none
  | cs => (parseDigits digit cs).bind fun n => if n < 2 ^ 63 then some n else none

/-- `OCR.Result.getTextAsNumber()`. -/
def getTextAsNumber (digit : Char → Option ℕ) (text : String) : Option ℤ :=
  parseLong digit (getTextWithoutSpace text)

/-- The text `detectAccurate` counts: not an empty one. -/
def getNonEmptyText (text : String) : Option String :=
  if getTextWithoutSpace text = "" then none else some (getTextWithoutSpace text)

/-! ### The two methods -/

section

variable {K : Type} [DecidableEq K]

/-- The checker: `countMap.compute(value, (k, v) -> v == null ? 1 : v + 1) >= count`. -/
def vote (key : String → Option K) (count : ℤ) (input : String) (countMap : K → Option ℤ) :
    Method (Bool × (K → Option ℤ)) :=
  match key input with
  | none => pure (false, countMap)
  | some k =>
    let v := match countMap k with
      | none => 1
      | some v => addInt v 1
    pure (decide (count ≤ v), Function.update countMap k (some v))

/-- What the two methods share: the text of the result `until` returns. -/
def detectAccurateBy (key : String → Option K) (env : Env) (horizon : ℕ) (count : ℤ) (timeout : Option ℤ)
    (reset : Option Runnable) : Method String := do
  let (input, _) ← untilChecked env horizon (detectText env horizon) (vote key count) (sleep env horizon 30)
    timeout reset fun _ => none
  return input

def detectAccurateNumber (env : Env) (horizon : ℕ) (count : ℤ) (timeout : Option ℤ) (reset : Option Runnable) :
    Method (Option ℤ) := do
  let input ← detectAccurateBy (getTextAsNumber env.digit) env horizon count timeout reset
  return getTextAsNumber env.digit input

def detectAccurate (env : Env) (horizon : ℕ) (count : ℤ) (timeout : Option ℤ) (reset : Option Runnable) :
    Method String := do
  let input ← detectAccurateBy getNonEmptyText env horizon count timeout reset
  return getTextWithoutSpace input

end

/-! ### The loop, check by check -/

section

variable {K : Type} [DecidableEq K] (key : String → Option K) (env : Env) (w : World) (count : ℕ)
  (timeout : Option ℤ) (reset : Option Runnable)

/-- The votes of a reading that starts in `w`. -/
def votes (n : ℕ) : Option K := key (env.text (w.texts + n))

/-- Check `n`, failing, finds that the time is up. -/
def Expired (n : ℕ) : Prop :=
  ∃ max, timeout = some max ∧ max < subLong (env.clock (w.clocks + 1 + n)) (env.clock w.clocks)

/-- The reading does not go on after check `n`. -/
def Stops (n : ℕ) : Prop := Elects (votes key env w) count n ∨ Expired env w timeout n

/-- The world at check `n`: `n + 1` texts are read and `n` checks have failed. -/
def atCheck (n : ℕ) : World where
  operations := w.operations + 2 * n + 1
  images := w.images
  texts := w.texts + n + 1
  clocks := w.clocks + 1 + if timeout.isSome then n else 0
  deeds := w.deeds ++ List.replicate n (.sleep 30)

/-- The map holds the tallies. -/
def Counts (countMap : K → Option ℤ) (n : ℕ) : Prop :=
  ∀ k, countMap k = if tally (votes key env w) n k = 0 then none else some (tally (votes key env w) n k : ℤ)

/-- The ways a reading can come out at a horizon. -/
inductive Reading (horizon : ℕ) : EStateM.Result Stop World (String × (K → Option ℤ)) → Prop
  | elected (n : ℕ) (k : K) (countMap : K → Option ℤ) :
      (∀ i < n, ¬ Stops key env w count timeout i) → votes key env w n = some k →
      tally (votes key env w) n k + 1 = count →
      Reading horizon (.ok (env.text (w.texts + n), countMap) (atCheck w timeout n))
  | expired (n : ℕ) :
      (∀ i < n, ¬ Stops key env w count timeout i) → ¬ Elects (votes key env w) count n →
      Expired env w timeout n →
      Reading horizon (.error (.threw (.resetScript reset))
        { atCheck w timeout n with clocks := w.clocks + 1 + n + 1 })
  | pending (n : ℕ) (w' : World) :
      (∀ i < n, ¬ Stops key env w count timeout i) → horizon ≤ w.operations + 2 * n → w'.texts = w.texts + n →
      Reading horizon (.error .pending w')

variable {key env w count timeout reset}

theorem counts_zero : Counts key env w (fun _ => none) 0 := fun k => by simp

/-- A vote that elects nobody is entered in the map; one that elects ends the loop. -/
theorem vote_run (hcount : 1 ≤ count) (hint : count < 2 ^ 31) {n : ℕ}
    (hn : ∀ i < n, ¬ Elects (votes key env w) count i) {countMap : K → Option ℤ}
    (h : Counts key env w countMap n) (w' : World) :
    ∃ countMap', Counts key env w countMap' (n + 1) ∧
      ((¬ Elects (votes key env w) count n ∧
          vote key count (env.text (w.texts + n)) countMap w' = .ok (false, countMap') w') ∨
        ∃ k, votes key env w n = some k ∧ tally (votes key env w) n k + 1 = count ∧
          vote key count (env.text (w.texts + n)) countMap w' = .ok (true, countMap') w') := by
  cases hk : votes key env w n with
  | none =>
    have hkey : key (env.text (w.texts + n)) = none := hk
    refine ⟨countMap, fun k => ?_, Or.inl ⟨?_, by simp only [vote, hkey, pure_run]⟩⟩
    · have hne : votes key env w n ≠ some k := by simp [hk]
      rw [h k, tally_succ_of_ne hne]
    · rw [elects_iff hcount hn]
      rintro ⟨k, hv, -⟩
      rw [hk] at hv
      cases hv
  | some k =>
    have hkey : key (env.text (w.texts + n)) = some k := hk
    have hlt := tally_lt hcount hn k
    -- the entry of `k` becomes its tally with this vote, and the `int` does not overflow
    have hentry : (match countMap k with
        | none => (1 : ℤ)
        | some v => addInt v 1) = (tally (votes key env w) n k : ℤ) + 1 := by
      rw [h k]
      by_cases hz : tally (votes key env w) n k = 0
      · simp [hz]
      · have hbound : ((tally (votes key env w) n k : ℤ) + 1) < 2 ^ 31 := by omega
        simp only [if_neg hz]
        exact addInt_eq (by omega) hbound
    have hmap : Counts key env w (Function.update countMap k (some ((tally (votes key env w) n k : ℤ) + 1)))
        (n + 1) := by
      intro j
      by_cases hj : j = k
      · subst hj
        simp [tally_succ_of_eq hk]
      · have hne : votes key env w n ≠ some j := fun e => hj (Option.some.inj (e.symm.trans hk))
        rw [Function.update_of_ne hj, h j, tally_succ_of_ne hne]
    refine ⟨_, hmap, ?_⟩
    by_cases hwin : tally (votes key env w) n k + 1 = count
    · refine Or.inr ⟨k, rfl, hwin, ?_⟩
      have hle : (count : ℤ) ≤ (tally (votes key env w) n k : ℤ) + 1 := by omega
      simp only [vote, hkey, hentry, hle, decide_true, pure_run]
    · refine Or.inl ⟨?_, ?_⟩
      · rw [elects_iff hcount hn]
        rintro ⟨j, hv, hj⟩
        rw [hk] at hv
        cases hv
        exact hwin hj
      · have hle : ¬ (count : ℤ) ≤ (tally (votes key env w) n k : ℤ) + 1 := by omega
        simp only [vote, hkey, hentry, hle, decide_false, pure_run]

/-- The clock is read only with a timeout set. -/
theorem checkTime_run (env : Env) (w : World) (timeout : Option ℤ) (reset : Option Runnable) (n : ℕ) :
    (Expired env w timeout n ∧ checkTime env timeout reset (env.clock w.clocks) (atCheck w timeout n) =
        .error (.threw (.resetScript reset)) { atCheck w timeout n with clocks := w.clocks + 1 + n + 1 }) ∨
      (¬ Expired env w timeout n ∧ checkTime env timeout reset (env.clock w.clocks) (atCheck w timeout n) =
        .ok () { atCheck w timeout n with clocks := (atCheck w timeout (n + 1)).clocks }) := by
  cases timeout with
  | none =>
    refine Or.inr ⟨?_, rfl⟩
    rintro ⟨max, h, -⟩
    cases h
  | some max =>
    have hrun : checkTime env (some max) reset (env.clock w.clocks) (atCheck w (some max) n) =
        if max < subLong (env.clock (w.clocks + 1 + n)) (env.clock w.clocks) then
          .error (.threw (.resetScript reset)) { atCheck w (some max) n with clocks := w.clocks + 1 + n + 1 }
        else .ok () { atCheck w (some max) n with clocks := w.clocks + 1 + n + 1 } := by
      simp only [checkTime]
      change (if max < subLong (env.clock (w.clocks + 1 + n)) (env.clock w.clocks) then _ else _ : Method Unit) _ = _
      rw [ite_run]
      rfl
    by_cases hmax : max < subLong (env.clock (w.clocks + 1 + n)) (env.clock w.clocks)
    · exact Or.inl ⟨⟨max, rfl, hmax⟩, by rw [hrun, if_pos hmax]⟩
    · refine Or.inr ⟨?_, by rw [hrun, if_neg hmax]; rfl⟩
      rintro ⟨m, hm, hlt⟩
      cases hm
      exact hmax hlt

/-- From check `n` on. The induction is on the fuel, which cannot run out before the
horizon does. -/
theorem loop_run (hfault : ∀ n, env.fault n = none) (hcount : 1 ≤ count) (hint : count < 2 ^ 31) {horizon : ℕ} :
    ∀ (fuel n : ℕ) (countMap : K → Option ℤ), fuel + n = horizon + 1 →
      (∀ i < n, ¬ Stops key env w count timeout i) → Counts key env w countMap n →
      w.operations + 2 * n + 1 ≤ horizon →
      Reading key env w count timeout reset horizon
        (untilLoop env (detectText env horizon) (vote key count) (sleep env horizon 30) timeout reset
          (env.clock w.clocks) fuel (env.text (w.texts + n)) countMap (atCheck w timeout n)) := by
  intro fuel
  induction fuel with
  | zero =>
    intro n countMap hfuel _ _ hop
    omega
  | succ fuel ih =>
    intro n countMap hfuel hn hmap hop
    have hvotes : ∀ i < n, ¬ Elects (votes key env w) count i := fun i hi he => hn i hi (Or.inl he)
    obtain ⟨countMap', hmap', ⟨hnot, hrun⟩ | ⟨k, hk, htally, hrun⟩⟩ :=
      vote_run hcount hint hvotes hmap (atCheck w timeout n)
    · rw [untilLoop, bind_of_ok hrun]
      simp only [Bool.false_eq_true, ↓reduceIte]
      rcases checkTime_run env w timeout reset n with ⟨hexp, htime⟩ | ⟨hexp, htime⟩
      · rw [bind_run, htime]
        exact .expired n hn hnot hexp
      · have hn' : ∀ i < n + 1, ¬ Stops key env w count timeout i := by
          intro i hi
          rcases Nat.lt_succ_iff_lt_or_eq.mp hi with hlt | rfl
          · exact hn i hlt
          · exact not_or.mpr ⟨hnot, hexp⟩
        rw [bind_of_ok htime]
        -- the horizon may lie before the `sleep`, before the next read, or after both
        by_cases hsleep : w.operations + 2 * n + 1 < horizon
        · rw [sleep, bind_of_ok (perform_of_lt hfault (by exact hsleep) _)]
          by_cases hread : w.operations + 2 * n + 2 < horizon
          · rw [bind_of_ok (detectText_of_lt hfault (by exact hread))]
            have hnext := ih (n + 1) countMap' (by omega) hn' hmap' (by omega)
            have hworld : ({ atCheck w timeout n with
                operations := w.operations + 2 * n + 1 + 1 + 1, texts := w.texts + n + 1 + 1,
                clocks := (atCheck w timeout (n + 1)).clocks,
                deeds := w.deeds ++ List.replicate n (.sleep 30) ++ [.sleep 30] } : World) =
                atCheck w timeout (n + 1) := by
              have hops : w.operations + 2 * n + 1 + 1 + 1 = w.operations + 2 * (n + 1) + 1 := by omega
              have htexts : w.texts + n + 1 + 1 = w.texts + (n + 1) + 1 := by omega
              simp only [atCheck, hops, htexts, List.replicate_succ', List.append_assoc]
            rw [← hworld] at hnext
            exact hnext
          · rw [bind_run, detectText_of_le (by exact not_lt.mp hread)]
            exact .pending (n + 1) _ hn' (by omega) rfl
        · rw [sleep, bind_run, perform_of_le (by exact not_lt.mp hsleep)]
          exact .pending (n + 1) _ hn' (by omega) rfl
    · rw [untilLoop, bind_of_ok hrun]
      exact .elected n k countMap' hn hk htally

/-- A whole reading. -/
theorem until_run (hfault : ∀ n, env.fault n = none) (hcount : 1 ≤ count) (hint : count < 2 ^ 31) (horizon : ℕ) :
    Reading key env w count timeout reset horizon
      (untilChecked env horizon (detectText env horizon) (vote key count) (sleep env horizon 30) timeout reset
        (fun _ => none) w) := by
  rw [untilChecked]
  by_cases h : w.operations < horizon
  · rw [bind_of_ok (detectText_of_lt hfault h)]
    have hnone : ∀ i < 0, ¬ Stops key env w count timeout i := fun i hi => absurd hi (Nat.not_lt_zero i)
    have hloop : Reading key env w count timeout reset horizon _ :=
      loop_run hfault hcount hint (horizon + 1) 0 (fun _ => none) rfl hnone counts_zero (by omega)
    have hworld : ({ w with operations := w.operations + 1, texts := w.texts + 1, clocks := w.clocks + 1 } : World) =
        atCheck w timeout 0 := by
      simp [atCheck]
    rw [← hworld] at hloop
    exact hloop
  · rw [bind_run, detectText_of_le (not_lt.mp h)]
    exact .pending 0 w (fun i hi => absurd hi (Nat.not_lt_zero i)) (not_lt.mp h) rfl

/-! ### First past the post -/

variable (key env w count timeout reset)

/-- What a reading that starts in `w` should do. -/
structure FirstPastThePost {R : Type} (result : K → R) (method : ℕ → Method R) : Prop where
  /-- it returns the first value read `count` times, and has read nothing after it -/
  elected : ∀ n v, (∀ i < n, ¬ Stops key env w count timeout i) → count ≤ tally (votes key env w) (n + 1) v →
    ∀ horizon, w.operations + 2 * n + 1 ≤ horizon → method horizon w = .ok (result v) (atCheck w timeout n)
  /-- the first failing check after the time is up resets the script, and nothing more is read -/
  expired : ∀ n, (∀ i < n, ¬ Stops key env w count timeout i) → ¬ Elects (votes key env w) count n →
    Expired env w timeout n → ∀ horizon, w.operations + 2 * n + 1 ≤ horizon →
    method horizon w = .error (.threw (.resetScript reset))
      { atCheck w timeout n with clocks := w.clocks + 1 + n + 1 }
  /-- with neither it polls for ever -/
  polls : (∀ n, ¬ Stops key env w count timeout n) → ∀ horizon, ∃ w', method horizon w = .error .pending w'
  /-- with `k` values around, at most `k * (count - 1) + 1` texts that say one are read -/
  consumed : ∀ (horizon : ℕ) (values : Finset K), (∀ i k, votes key env w i = some k → k ∈ values) →
    turnout (votes key env w) ((left (method horizon w)).texts - w.texts) ≤ values.card * (count - 1) + 1

variable {key env w count timeout reset}

/-- Where a reading stops first is one place. -/
theorem first_unique {p : ℕ → Prop} {m n : ℕ} (hm : ∀ i < m, ¬ p i) (hpm : p m) (hn : ∀ i < n, ¬ p i)
    (hpn : p n) : m = n := by
  rcases lt_trichotomy m n with h | h | h
  · exact absurd hpm (hn m h)
  · exact h
  · exact absurd hpn (hm n h)

/-- At a horizon past the first stop the reading is over, one way or the other. -/
theorem Reading.at_stop {horizon n : ℕ} {r : EStateM.Result Stop World (String × (K → Option ℤ))}
    (hcount : 1 ≤ count) (h : Reading key env w count timeout reset horizon r)
    (hn : ∀ i < n, ¬ Stops key env w count timeout i) (hstop : Stops key env w count timeout n)
    (hle : w.operations + 2 * n + 1 ≤ horizon) :
    (∃ k countMap, votes key env w n = some k ∧ tally (votes key env w) n k + 1 = count ∧
        r = .ok (env.text (w.texts + n), countMap) (atCheck w timeout n)) ∨
      (¬ Elects (votes key env w) count n ∧ r = .error (.threw (.resetScript reset))
        { atCheck w timeout n with clocks := w.clocks + 1 + n + 1 }) := by
  cases h with
  | elected m k countMap hm hk htally =>
    have helects : Elects (votes key env w) count m :=
      (elects_iff hcount fun i hi he => hm i hi (Or.inl he)).mpr ⟨k, hk, htally⟩
    obtain rfl := first_unique hm (Or.inl helects) hn hstop
    exact Or.inl ⟨k, countMap, hk, htally, rfl⟩
  | expired m hm hnot hexp =>
    obtain rfl := first_unique hm (Or.inr hexp) hn hstop
    exact Or.inr ⟨hnot, rfl⟩
  | pending m w' hm hhorizon htexts =>
    have hmn : m ≤ n := by
      by_contra hlt
      exact hm n (not_le.mp hlt) hstop
    omega

/-- No text is read after the first stop. -/
theorem Reading.texts {horizon : ℕ} {r : EStateM.Result Stop World (String × (K → Option ℤ))}
    (h : Reading key env w count timeout reset horizon r) :
    ∃ n, (∀ i < n, ¬ Stops key env w count timeout i) ∧ (left r).texts - w.texts ≤ n + 1 := by
  cases h with
  | elected n k countMap hn hk htally => exact ⟨n, hn, by simp only [left, atCheck]; omega⟩
  | expired n hn hnot hexp => exact ⟨n, hn, by simp only [left, atCheck]; omega⟩
  | pending n w' hn hhorizon htexts => exact ⟨n, hn, by simp only [left]; omega⟩

/-- A method that returns what the text of the reading says does what it should. -/
theorem firstPastThePost_of_key (hfault : ∀ n, env.fault n = none) (hcount : 1 ≤ count) (hint : count < 2 ^ 31)
    {R : Type} {result : K → R} {value : String → R} (hvalue : ∀ text k, key text = some k → value text = result k) :
    FirstPastThePost key env w count timeout reset result fun horizon => do
      let input ← detectAccurateBy key env horizon count timeout reset
      return value input := by
  have hrun : ∀ horizon, ∃ r, Reading key env w count timeout reset horizon r ∧
      (do let input ← detectAccurateBy key env horizon count timeout reset; return value input : Method R) w =
        match r with
        | .ok (text, _) w' => .ok (value text) w'
        | .error e w' => .error e w' := by
    intro horizon
    refine ⟨_, until_run hfault hcount hint horizon, ?_⟩
    rw [bind_run, detectAccurateBy, bind_run]
    cases untilChecked env horizon (detectText env horizon) (vote key count) (sleep env horizon 30) timeout reset
      (fun _ => none) w <;> rfl
  constructor
  · intro n v hn hv horizon hle
    obtain ⟨r, hr, hm⟩ := hrun horizon
    have hstop : Stops key env w count timeout n := Or.inl ⟨v, hv⟩
    rcases hr.at_stop hcount hn hstop hle with ⟨k, countMap, hk, htally, rfl⟩ | ⟨hnot, -⟩
    · have hlt := tally_lt hcount (fun i hi he => hn i hi (Or.inl he)) v
      have hkv : votes key env w n = some v := by
        by_contra hne
        rw [tally_succ_of_ne hne] at hv
        omega
      rw [hm]
      exact congrArg (fun x => EStateM.Result.ok x (atCheck w timeout n)) (hvalue _ v hkv)
    · exact absurd ⟨v, hv⟩ hnot
  · intro n hn hnot hexp horizon hle
    obtain ⟨r, hr, hm⟩ := hrun horizon
    rcases hr.at_stop hcount hn (Or.inr hexp) hle with ⟨k, countMap, hk, htally, -⟩ | ⟨-, rfl⟩
    · exact absurd ((elects_iff hcount fun i hi he => hn i hi (Or.inl he)).mpr ⟨k, hk, htally⟩) hnot
    · exact hm
  · intro hnever horizon
    obtain ⟨r, hr, hm⟩ := hrun horizon
    cases hr with
    | elected n k countMap hn hk htally =>
      exact absurd (Or.inl ((elects_iff hcount fun i hi he => hn i hi (Or.inl he)).mpr ⟨k, hk, htally⟩)) (hnever n)
    | expired n hn hnot hexp => exact absurd (Or.inr hexp) (hnever n)
    | pending n w' hn hhorizon htexts => exact ⟨w', hm⟩
  · intro horizon values hmem
    obtain ⟨r, hr, hm⟩ := hrun horizon
    have hleft : (left (match r with
        | .ok (text, _) w' => (.ok (value text) w' : EStateM.Result Stop World R)
        | .error e w' => .error e w')) = left r := by
      cases r <;> rfl
    obtain ⟨n, hn, hle⟩ := hr.texts
    rw [hm, hleft]
    exact (Nat.count_monotone _ hle).trans (turnout_le hcount hmem fun i hi he => hn i hi (Or.inl he))

end

/-- Accurate readings are first-past-the-post elections: `detectAccurateNumber` among the
numbers read, `detectAccurate` among the texts that are not empty. -/
theorem accurate_first_past_the_post (env : Env) (hfault : ∀ n, env.fault n = none) (w : World) (count : ℕ)
    (hcount : 1 ≤ count) (hint : count < 2 ^ 31) (timeout : Option ℤ) (reset : Option Runnable) :
    FirstPastThePost (getTextAsNumber env.digit) env w count timeout reset some
        (fun horizon => detectAccurateNumber env horizon count timeout reset) ∧
      FirstPastThePost getNonEmptyText env w count timeout reset id
        (fun horizon => detectAccurate env horizon count timeout reset) := by
  refine ⟨firstPastThePost_of_key hfault hcount hint fun text k hk => hk,
    firstPastThePost_of_key hfault hcount hint fun text k hk => ?_⟩
  rw [getNonEmptyText] at hk
  split at hk
  · cases hk
  · exact Option.some.inj hk

/-- A seven, something unreadable, and sevens from then on. -/
def sevens : Env where
  similarity := fun _ => 0
  text := fun n => if n = 1 then "l" else " 7\n"
  clock := fun n => n
  fault := fun _ => none
  digit := fun c => if c.isDigit then some (c.toNat - '0'.toNat) else none

/-- The second seven is elected, at the third text. -/
theorem accurate_sevens : detectAccurateNumber sevens 5 2 (some 2000) none World.start =
    .ok (some 7) (atCheck World.start (some 2000) 2) := by
  refine (accurate_first_past_the_post sevens (fun _ => rfl) World.start 2 (by decide) (by decide) (some 2000)
    none).1.elected 2 7 ?_ (by decide +kernel) 5 (by decide)
  rintro i hi (⟨k, hk⟩ | ⟨max, hmax, hlt⟩)
  · have hunread : votes (getTextAsNumber sevens.digit) sevens World.start 1 = none := by decide +kernel
    have hne : votes (getTextAsNumber sevens.digit) sevens World.start 1 ≠ some k := by simp [hunread]
    have hone : tally (votes (getTextAsNumber sevens.digit) sevens World.start) 1 k ≤ 1 := Nat.count_le _
    have htwo := tally_succ_of_ne hne
    interval_cases i
    · exact absurd (hk.trans hone) (by decide)
    · exact absurd ((hk.trans_eq htwo).trans hone) (by decide)
  · cases hmax
    interval_cases i <;> exact absurd hlt (by decide)

end Engine
end PGCon

import LowOrbit.Proofs.Cubic.Epochs

/-!
# The window of a Reno flow, packet by packet

The CUBIC engine keeps up with the window that a Reno flow would have by one division for any number
of acknowledged packets. The rule behind it is a loop: as long as more than a quota of packets is
counted, a quota of them is worth one packet of growth (`Cubic.Tally.Drains`). The main theorem is
`Cubic.State.update_drains`: what an acknowledgment leaves is where the loop ends.
-/

namespace LowOrbit.Cubic

/-! ## The loop -/

/-- The counters of a Reno flow. -/
structure Tally where
  /-- The packets acknowledged and not yet credited to the window. -/
  acked : Nat
  /-- The window. -/
  window : Nat
  deriving DecidableEq, Repr

namespace Tally

/-- Credits the window with one packet for a quota. -/
def credit (quota : Nat) (t : Tally) : Tally := ⟨t.acked - quota, countAdd t.window 1⟩

/-- Crediting one packet after the other, as long as more than a quota is counted, takes `n` rounds
and ends with the second tally. -/
inductive Drains (quota : Nat) : Nat → Tally → Tally → Prop where
  | done {t : Tally} (h : t.acked ≤ quota) : Drains quota 0 t t
  | more {n : Nat} {t t' : Tally} (h : quota < t.acked)
      (rest : Drains quota n (t.credit quota) t') : Drains quota (n + 1) t t'

variable {quota n : Nat} {t t' : Tally}

/-- At the end, no more than a quota is counted. -/
theorem Drains.acked_le (h : Drains quota n t t') : t'.acked ≤ quota := by
  induction h with
  | done hle => exact hle
  | more _ _ ih => exact ih

/-- If packets are counted, some still are at the end. -/
theorem Drains.acked_pos (h : Drains quota n t t') (hpos : 0 < t.acked) : 0 < t'.acked := by
  induction h with
  | done _ => exact hpos
  | more hmore _ ih => exact ih (Nat.sub_pos_of_lt hmore)

/-- Every packet is either part of the quota of one round or still counted at the end. -/
theorem Drains.acked_add (h : Drains quota n t t') : t'.acked + n * quota = t.acked := by
  induction h with
  | done _ => rw [Nat.zero_mul, Nat.add_zero]
  | @more n t t' hmore _ ih =>
      have hrest : (t.credit quota).acked = t.acked - quota := rfl
      rw [Nat.succ_mul, ← Nat.add_assoc, ih, hrest, Nat.sub_add_cancel hmore.le]

/-- A window that is a count grows by one packet a round, up to the largest count. -/
theorem Drains.window_eq (h : Drains quota n t t') (hcount : t.window ≤ maxCount) :
    t'.window = countAdd t.window n := by
  induction h with
  | done _ => exact (countAdd_of_le (b := 0) hcount).symm
  | @more n t t' _ _ ih =>
      have hgrown : (t.credit quota).window = countAdd t.window 1 := rfl
      rw [ih (countAdd_le_maxCount _ _), hgrown, countAdd_countAdd, Nat.add_comm 1]

/-- With more than `n + 1` quotas counted, but not more than `n + 2`, the loop takes `n + 1` rounds
and credits them all. -/
theorem drains_of_bounds {acked window : Nat} (hlow : (n + 1) * quota < acked)
    (hhigh : acked ≤ (n + 2) * quota) :
    Drains quota (n + 1) ⟨acked, window⟩
      ⟨acked - (n + 1) * quota, countAdd window (n + 1)⟩ := by
  induction n generalizing acked window with
  | zero =>
      rw [Nat.zero_add, Nat.one_mul] at hlow ⊢
      have hrest : acked - quota ≤ quota := by omega
      have hend : Drains quota 0 (credit quota ⟨acked, window⟩) (credit quota ⟨acked, window⟩) :=
        .done hrest
      exact .more hlow hend
  | succ n ih =>
      -- The first round takes a quota off both bounds.
      rw [Nat.succ_mul] at hlow hhigh
      have hmore : quota < acked := by omega
      have hrest : Drains quota (n + 1) ⟨acked - quota, countAdd window 1⟩
          ⟨acked - quota - (n + 1) * quota, countAdd (countAdd window 1) (n + 1)⟩ :=
        ih (by omega) (by omega)
      have hacked : acked - quota - (n + 1) * quota = acked - (n + 1 + 1) * quota := by
        rw [Nat.succ_mul (n + 1)]
        omega
      rw [hacked, countAdd_countAdd, Nat.add_comm 1] at hrest
      exact .more hmore hrest

end Tally

/-! ## The engine -/

namespace State

open Tally (Drains)

variable {p : Params} {st : State} {quota cwnd now : Nat}

/-- The counters of the Reno flow in the state of an engine. -/
def tally (st : State) : Tally := ⟨st.ackCount, st.renoCwnd⟩

/-- The counters once an acknowledgment is counted, up to the largest count. They start over with it
and the present window if it opens an epoch. -/
def tallyAfter (st : State) (cwnd acked : Nat) : Tally :=
  if st.epochStart = none then ⟨acked, cwnd⟩ else ⟨countAdd st.ackCount acked, st.renoCwnd⟩

/-- The division of the engine ends where the loop does. -/
theorem drains_creditReno (hquota : 0 < quota) (st : State) :
    Drains quota ((st.ackCount - 1) / quota) st.tally (st.creditReno quota).tally := by
  unfold creditReno
  split
  · rename_i hmore
    obtain ⟨n, hn⟩ : ∃ n, (st.ackCount - 1) / quota = n + 1 :=
      Nat.exists_eq_add_one.mpr (Nat.div_pos (Nat.le_sub_one_of_lt hmore) hquota)
    have hlow := Nat.div_mul_le_self (st.ackCount - 1) quota
    have hhigh : st.ackCount - 1 < quota * (n + 1 + 1) := hn ▸ Nat.lt_mul_div_succ _ hquota
    rw [Nat.mul_comm] at hhigh
    rw [hn] at hlow ⊢
    exact Tally.drains_of_bounds (by omega) (Nat.le_of_pred_lt hhigh)
  · rename_i hle
    rw [Nat.div_eq_of_lt (by omega)]
    exact .done (Nat.le_of_not_lt hle)

/-- Every acknowledgment is counted first, and opens an epoch if none is open, unless the pace is
fresh. -/
theorem exists_counted (hstale : st.isFresh cwnd now = false) (p : Params) (acked : Nat) :
    ∃ counted : State, counted.tally = st.tallyAfter cwnd acked ∧
      st.update p cwnd acked now = (counted.befriend p cwnd).limitPace := by
  have hstale' : ¬ (st.countAcked acked).isFresh cwnd now = true := by
    rw [Bool.not_eq_true]
    exact hstale
  rw [update, if_neg hstale']
  refine ⟨_, ?_, rfl⟩
  unfold tallyAfter
  cases hepoch : st.epochStart with
  | none =>
      have hclosed : (st.countAcked acked).epochStart = none := hepoch
      have hlater : ¬ (st.countAcked acked).inSameTick now = true := by simp [inSameTick, hclosed]
      rw [if_neg hlater, evaluate_of_closed hclosed]
      rfl
  | some start =>
      have hopen : (st.countAcked acked).epochStart = some start := hepoch
      split
      · rfl
      · rw [evaluate_of_open hopen]
        rfl

/-- Following the Reno flow is a matter of the pace, which is then low enough to reach a window
ahead within a round trip. -/
theorem followReno_bounds (cwnd : Nat) (st : State) :
    (st.followReno cwnd).tally = st.tally ∧
      (cwnd < st.renoCwnd → (st.followReno cwnd).pace ≤ cwnd / (st.renoCwnd - cwnd)) := by
  unfold followReno
  split
  · exact ⟨rfl, fun _ => Nat.min_le_right _ _⟩
  · rename_i hbehind
    exact ⟨rfl, fun hahead => absurd hahead hbehind⟩

/-- A befriended state has credited its Reno window, and its limited pace is low enough to reach
that window within a round trip if it is ahead, or the lowest one. -/
theorem befriend_bounds (hfriendly : p.tcpFriendliness = true) (cwnd : Nat) (st : State) :
    let after := (st.befriend p cwnd).limitPace
    after.tally = (st.creditReno (renoQuota p cwnd)).tally ∧
      (cwnd < after.renoCwnd → after.pace ≤ max 2 (cwnd / (after.renoCwnd - cwnd))) := by
  intro after
  obtain ⟨htally, hpace⟩ := followReno_bounds cwnd (st.creditReno (renoQuota p cwnd))
  have hafter : after = ((st.creditReno (renoQuota p cwnd)).followReno cwnd).limitPace :=
    congrArg limitPace (if_pos hfriendly)
  have hcredited : after.tally = (st.creditReno (renoQuota p cwnd)).tally := by
    rw [hafter]
    exact htally
  have hwindow : after.renoCwnd = (st.creditReno (renoQuota p cwnd)).renoCwnd :=
    congrArg Tally.window hcredited
  refine ⟨hcredited, fun hahead => ?_⟩
  rw [hwindow] at hahead ⊢
  have hlimited : after.pace =
      max ((st.creditReno (renoQuota p cwnd)).followReno cwnd).pace 2 := by
    rw [hafter]
    rfl
  have hbound := hpace hahead
  omega

/-- An acknowledgment that finds no fresh pace leaves the counters of the Reno flow where the loop
ends that credits one packet for a quota at a time, for the quota of a Reno flow that reduces its
window by as little. Every packet counted is either in the quota of one round or still counted
afterwards, at most a quota of them and at least one unless none was counted. If the Reno window is
ahead then, the pace is low enough to reach it within a round trip, or the lowest one. -/
theorem update_drains (hfriendly : p.tcpFriendliness = true)
    (hstale : st.isFresh cwnd now = false) (acked : Nat) :
    let quota := max (min (2 ^ 32 - 1) (cwnd * p.friendlyScale) / 8) 1
    let counted := st.tallyAfter cwnd acked
    let after := st.update p cwnd acked now
    (∃ rounds, Drains quota rounds counted after.tally ∧
      after.ackCount + rounds * quota = counted.acked ∧
      (counted.window ≤ maxCount → after.renoCwnd = countAdd counted.window rounds)) ∧
      (0 < counted.acked → 1 ≤ after.ackCount ∧ after.ackCount ≤ quota) ∧
      (cwnd < after.renoCwnd → after.pace ≤ max 2 (cwnd / (after.renoCwnd - cwnd))) := by
  intro quota counted after
  have hquota : renoQuota p cwnd = quota := by
    rw [renoQuota, countMul, Nat.min_comm]
    rfl
  have hpos : 0 < quota := Nat.le_max_right _ _
  obtain ⟨before, hbefore, hupdate⟩ := exists_counted hstale p acked
  obtain ⟨htally, hpace⟩ := befriend_bounds hfriendly cwnd before
  rw [← hupdate, hquota] at htally
  rw [← hupdate] at hpace
  have hdrains : Drains quota ((before.ackCount - 1) / quota) counted after.tally := by
    have hloop := drains_creditReno hpos before
    rwa [hbefore, ← htally] at hloop
  exact ⟨⟨_, hdrains, hdrains.acked_add, hdrains.window_eq⟩,
    fun hsome => ⟨hdrains.acked_pos hsome, hdrains.acked_le⟩, hpace⟩

/-- At a window of 8 packets, a Reno flow needs 15 packets for one of growth. With 32 counted, the
loop takes two rounds. -/
theorem update_drains_twice :
    let st : State :=
      { lastMax := 8, lastCwnd := 8, lastUpdate := some 0, epochStart := some 0, origin := 8,
        pace := 800, ackCount := 31, renoCwnd := 8 }
    let after := st.update (Params.ofConfig {}) 8 1 100000000
    Drains 15 2 ⟨32, 8⟩ after.tally ∧ after.ackCount = 2 ∧ after.renoCwnd = 10 ∧
      after.pace ≤ 4 := by
  intro st after
  have hstale : st.isFresh 8 100000000 = false := by decide
  have hquota : max (min (2 ^ 32 - 1) (8 * (Params.ofConfig {}).friendlyScale) / 8) 1 = 15 := by
    decide
  have hcount : after.ackCount = 2 := by decide
  have hwindow : after.renoCwnd = 10 := by decide
  obtain ⟨⟨rounds, hdrains, hcounted, -⟩, -, hpace⟩ :=
    update_drains (p := Params.ofConfig {}) rfl hstale 1
  rw [hquota] at hdrains hcounted
  have hrounds : rounds = 2 := by
    have hsum : 2 + rounds * 15 = 32 := hcount ▸ hcounted
    omega
  have hslow : after.pace ≤ max 2 (8 / (after.renoCwnd - 8)) := hpace (by decide)
  rw [hwindow] at hslow
  rw [hrounds] at hdrains
  exact ⟨hdrains, hcount, hwindow, hslow⟩

end State

end LowOrbit.Cubic

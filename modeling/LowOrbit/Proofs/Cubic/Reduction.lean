import LowOrbit.Proofs.Cubic.Epochs

/-!
# The response to a loss

A loss at a window leaves two numbers: the slow start threshold, to which the host reduces the
window, and the window that the next epoch climbs to. The second is what fast convergence lowers.
They stay ordered for every share kept after a loss (`Cubic.lossThreshold_le_lastMax`), and until
another loss the second can only be forgotten (`Connection.lastMax_handleAll`), so an epoch that
opens at the threshold has its origin between the two. The main theorem is
`Connection.loss_response`.
-/

namespace LowOrbit

namespace Cubic

/-! ## The two numbers -/

variable {x : Cubic} {w w' : Nat}

/-- A larger window leaves a threshold that is not smaller. -/
theorem lossThreshold_mono (x : Cubic) (h : w ≤ w') : x.lossThreshold w ≤ x.lossThreshold w' := by
  have hshare := Nat.div_le_div_right (c := 1024) (Nat.mul_le_mul_right x.params.beta h)
  exact max_le_max_right _ (min_le_min_right _ hshare)

/-- The threshold is below the window of the loss, unless that is small. -/
theorem lossThreshold_lt (hbeta : x.params.beta ≤ 1023) (hw : 3 ≤ w) : x.lossThreshold w < w := by
  have hshare : w * x.params.beta ≤ w * 1023 := Nat.mul_le_mul_left w hbeta
  simp only [lossThreshold, scaled, Growth.minThreshold]
  omega

/-- The window that the next epoch climbs to is not above the window of the loss. -/
theorem lastMax_reduce_le (hbeta : x.params.beta ≤ 1023) (w : Nat) :
    (x.reduce w).state.lastMax ≤ w := by
  have hshare : w * (1024 + x.params.beta) ≤ w * 2047 := Nat.mul_le_mul_left w (by omega)
  simp only [reduce, State.reduce, scaled]
  split <;> omega

/-- It is below the window of the loss exactly if fast convergence lowers it. -/
theorem lastMax_reduce_lt_iff (hbeta : x.params.beta ≤ 1023) (hw : 1 ≤ w) :
    (x.reduce w).state.lastMax < w ↔
      x.params.fastConvergence = true ∧ w < x.state.lastMax := by
  have hshare : w * (1024 + x.params.beta) ≤ w * 2047 := Nat.mul_le_mul_left w (by omega)
  simp only [reduce, State.reduce, scaled]
  split
  · rename_i hlowered
    exact ⟨fun _ => hlowered.symm, fun _ => by omega⟩
  · rename_i hkept
    exact ⟨fun h => absurd h (Nat.lt_irrefl w), fun h => absurd h.symm hkept⟩

/-- The threshold is not above the window that the next epoch climbs to, unless it is the smallest
one: the share that fast convergence keeps is half way between the other share and all. -/
theorem lossThreshold_le_lastMax (hbeta : x.params.beta ≤ 1023) (w : Nat) :
    x.lossThreshold w ≤ max Growth.minThreshold (x.reduce w).state.lastMax := by
  have hshare : w * x.params.beta ≤ w * 1023 := Nat.mul_le_mul_left w hbeta
  have hsum : w * (1024 + x.params.beta) = w * 1024 + w * x.params.beta := Nat.mul_add _ _ _
  simp only [lossThreshold, reduce, State.reduce, scaled, hsum]
  split <;> omega

/-! ## The next epoch -/

namespace State

variable {p : Params} {st : State}

/-- Without another loss, the window to climb to stays or is forgotten. -/
theorem lastMax_hear {r : Report} (hr : ∀ w, r ≠ .loss w) (p : Params) (now : Nat) (st : State) :
    (st.hear p now r).lastMax = st.lastMax ∨ (st.hear p now r).lastMax = 0 := by
  cases r with
  | ack cwnd acked =>
      left
      rcases epoch_update p cwnd acked now st with hsame | hopened
      · exact hsame.lastMax_eq
      · refine hopened.lastMax_eq.trans ?_
        unfold ensureEpoch
        split <;> rfl
  | loss w => exact absurd rfl (hr w)
  | delay micros => exact .inl (sameEpoch_recordDelay micros st).lastMax_eq
  | idle time => exact .inl (sameCurve_shiftEpoch time now st).lastMax_eq
  | restart => exact .inr rfl

/-- An epoch that an acknowledgment opens has its origin at the window, or at the last one if that
was larger. -/
theorem origin_of_opens {cwnd acked now : Nat} (hclosed : st.epochStart = none)
    (hopens : (st.update p cwnd acked now).epochStart ≠ none) :
    (st.update p cwnd acked now).origin = max cwnd st.lastMax := by
  rw [(sameEpoch_of_opens hclosed hopens).origin_eq]
  show (if st.lastMax ≤ cwnd then cwnd else st.lastMax) = _
  split <;> omega

end State

end Cubic

namespace Connection

open LowOrbit.Cubic (Report)

/-- The event is neither a loss nor a new configuration. -/
def Event.Lossless : Event → Prop
  | .reduce | .shrink _ | .renew _ => False
  | _ => True

variable {c : Connection} {x : Cubic} {e : Event}

/-- Losses are all that the engine hears of as losses. -/
theorem report_of_lossless (he : e.Lossless) {r : Report} (hr : c.report? x e = some r) (w : Nat) :
    r ≠ .loss w := by
  intro hloss
  subst hloss
  cases e with
  | reduce | shrink features | renew config => exact he
  | ack phase acked =>
      simp only [report?, Cubic.ackReport?] at hr
      split at hr
      · split at hr <;> simp at hr
      · cases hr
  | sample sample => simp [report?] at hr
  | windowEvent event => cases event <;> simp [report?] at hr
  | changeState state => cases state <;> simp [report?] at hr
  | _ => simp [report?] at hr

/-- Until there is another loss, the window to climb to stays or is forgotten. -/
theorem lastMax_handleAll (hx : c.engine = .cubic x) {events : List Event}
    (hevents : ∀ e ∈ events, e.Lossless) :
    ∃ y, (c.handleAll events).engine = .cubic y ∧
      (y.state.lastMax = x.state.lastMax ∨ y.state.lastMax = 0) := by
  induction events generalizing c x with
  | nil => exact ⟨x, hx, .inl rfl⟩
  | cons e rest ih =>
      have he : e.Lossless := hevents e (List.mem_cons_self ..)
      have hrenew : ∀ config, e ≠ .renew config := by
        intro config h
        subst h
        exact he
      obtain ⟨y, hy, -, hstate⟩ := state_handle hx hrenew
      obtain ⟨z, hz, hlast⟩ := ih hy fun e h => hevents e (List.mem_cons_of_mem _ h)
      have hstep : y.state.lastMax = x.state.lastMax ∨ y.state.lastMax = 0 := by
        rw [hstate]
        cases hreport : c.report? x e with
        | none => exact .inl rfl
        | some r => exact Cubic.State.lastMax_hear (report_of_lossless he hreport) _ _ _
      refine ⟨z, hz, ?_⟩
      rcases hlast with hkept | hforgotten
      · exact hkept ▸ hstep
      · exact .inr hforgotten

/-- The threshold of a connection with a cubic engine is the one for its effective window. -/
theorem lossThreshold_of_cubic (hx : c.engine = .cubic x) :
    c.lossThreshold = x.lossThreshold c.link.effectiveCwnd := by
  rw [lossThreshold, hx]
  rfl

/-- A cubic engine remembers a loss at the effective window. -/
theorem handle_reduce_of_cubic (hx : c.engine = .cubic x) :
    (c.handle .reduce).engine = .cubic (x.reduce c.link.effectiveCwnd) := by
  show c.engine.reduce c.link.effectiveCwnd = _
  rw [hx]
  rfl

/-- The response to a loss at the effective window `w`: the threshold `v`, and the window `M` that
the next epoch climbs to. Whatever happens between the loss and the next one, an epoch that opens at
window `v` has an origin between `v` and `w`, or 2 if `w` is less. -/
theorem loss_response (hx : c.engine = .cubic x) (hbeta : x.params.beta ≤ 1023) :
    ∃ reduced, (c.handle .reduce).engine = .cubic reduced ∧
      let w := c.link.effectiveCwnd
      let v := c.lossThreshold
      let M := reduced.state.lastMax
      2 ≤ v ∧ (3 ≤ w → v < w) ∧ M ≤ w ∧
      (1 ≤ w → (M < w ↔ x.params.fastConvergence = true ∧ w < x.state.lastMax)) ∧
      v ≤ max 2 M ∧
      (∀ d : Connection, d.engine = c.engine → w ≤ d.link.effectiveCwnd → v ≤ d.lossThreshold) ∧
      ∀ events, (∀ e ∈ events, e.Lossless) →
        ∃ y, ((c.handle .reduce).handleAll events).engine = .cubic y ∧
          ∀ acked now, y.state.epochStart = none →
            (y.state.update y.params v acked now).epochStart ≠ none →
            v ≤ (y.state.update y.params v acked now).origin ∧
              (y.state.update y.params v acked now).origin ≤ max w 2 := by
  have hreduced := handle_reduce_of_cubic hx
  have hM := Cubic.lastMax_reduce_le hbeta c.link.effectiveCwnd
  have hv := Cubic.lossThreshold_le_lastMax hbeta c.link.effectiveCwnd
  refine ⟨_, hreduced, ?_⟩
  rw [lossThreshold_of_cubic hx]
  refine ⟨Nat.le_max_right _ _, Cubic.lossThreshold_lt hbeta, hM,
    Cubic.lastMax_reduce_lt_iff hbeta, hv, ?_, ?_⟩
  · intro d hd hle
    rw [lossThreshold_of_cubic (hd.trans hx)]
    exact x.lossThreshold_mono hle
  · intro events hevents
    obtain ⟨y, hy, hlast⟩ := lastMax_handleAll hreduced hevents
    refine ⟨y, hy, ?_⟩
    intro acked now hclosed hopens
    -- The origin is `v` itself or what is left of `M`, and both are at most `w` or 2.
    rw [Cubic.State.origin_of_opens hclosed hopens]
    simp only [Growth.minThreshold] at hv
    omega

/-- A flow that loses a packet at a window of 50, before it has come back to 80, and keeps about 70%
of it, has a threshold of 35, and climbs to 42 from there. -/
theorem loss_response_shrinking :
    let x : Cubic := { Cubic.ofConfig {} with state := { lastMax := 80 } }
    let c : Connection :=
      { link := { socket := { cwnd := 50 } }, engine := .cubic x,
        schedule := Handover.Schedule.ofConfig {} }
    let events : List Event := [.edit .full { cwnd := some 35, ssthresh := some 35 }]
    c.lossThreshold = 35 ∧ ∃ reduced y,
      (c.handle .reduce).engine = .cubic reduced ∧ reduced.state.lastMax < 50 ∧
      ((c.handle .reduce).handleAll events).engine = .cubic y ∧
      35 ≤ (y.state.update y.params 35 1 0).origin ∧
      (y.state.update y.params 35 1 0).origin ≤ 50 := by
  intro x c events
  have hv : c.lossThreshold = 35 := by decide
  obtain ⟨reduced, hreduced, -, -, -, hlowered, -, -, hnext⟩ :=
    loss_response (c := c) (x := x) rfl (by decide)
  obtain ⟨y, hy, hepoch⟩ := hnext events (by simp [events, Event.Lossless])
  obtain rfl : x.reduce 50 = y := Engine.cubic.inj hy
  rw [hv] at hepoch
  obtain ⟨hlow, hhigh⟩ := hepoch 1 0 rfl (by decide)
  exact ⟨hv, reduced, _, hreduced, (hlowered (by decide)).mpr (by decide), hy, hlow, hhigh⟩

end Connection

end LowOrbit

import LowOrbit.Proofs.Frame
import LowOrbit.Session.Run

/-!
# Outlines

The outline of a session is what remains of it when its engine is taken away: the window is open or
closed, a suspended gate has saved something, and the log does not say how large a window was. The
gate, the timers, the clock and the passing of time never ask for more. Taking the outline therefore
commutes with everything that they do, up to `Session.outline_run`: the outline of a session that
lets time pass is found by letting time pass for the outline. There are two outlines, with and
without what is logged of the schedule, because whether anything is logged is up to each connection.
-/

namespace LowOrbit

open Handover (Action Gate Link Report Schedule)
open Socket (Edit Features)

/-! ## Links -/

/-- The socket with an open window of one packet in place of any other, and without the numbers that
only engines look at. -/
def Socket.outline (s : Socket) : Socket :=
  { s with cwnd := min s.cwnd 1, credit := 0, ssthresh := 0, priorCwnd := 0 }

/-- The gate with a saved window of one packet in place of any other. -/
def Handover.Gate.outline : Gate → Gate
  | .opened => .opened
  | .suspended _ => .suspended 1

/-- The link without the sizes of its windows. -/
def Handover.Link.outline (l : Link) : Link where
  gate := l.gate.outline
  socket := l.socket.outline

namespace Socket

/-- How a socket is presented does not depend on its windows. -/
theorem outline_present (f : Features) (s : Socket) :
    (f.present s).outline = f.present s.outline := by
  cases f <;> rfl

/-- What an edit leaves of the outline depends on the outline alone. -/
theorem outline_edit (s : Socket) (e : Edit) : (s.edit e).outline = (s.outline.edit e).outline := by
  cases hcwnd : e.cwnd with
  | none => simp [outline, edit, hcwnd]
  | some cwnd => simp [outline, edit, hcwnd]

/-- Waking writers does not depend on windows. -/
theorem outline_wakeWriters (s : Socket) : s.wakeWriters.outline = s.outline.wakeWriters := by
  by_cases hblocked : s.writeBlocked = true <;> simp [wakeWriters, outline, hblocked]

/-- Sockets that differ in their engine's numbers only, and whose windows are both open or both
closed, have the same outline. -/
theorem outline_eq_of_frame {s s' : Socket} (hclosed : s'.cwnd = 0 ↔ s.cwnd = 0)
    (hframe : ∃ cwnd credit ssthresh priorCwnd, s' =
      { s with cwnd := cwnd, credit := credit, ssthresh := ssthresh, priorCwnd := priorCwnd }) :
    s'.outline = s.outline := by
  obtain ⟨cwnd, credit, ssthresh, priorCwnd, rfl⟩ := hframe
  have hmin : min cwnd 1 = min s.cwnd 1 := by
    simp only at hclosed
    omega
  simp only [outline, hmin]

end Socket

namespace Handover

/-- Whether a gate is suspended can be told from its outline. -/
theorem Gate.isSuspended_outline (g : Gate) : g.outline.isSuspended = g.isSuspended := by
  cases g <;> rfl

namespace Link

variable (l : Link)

/-- Whether a window is closed can be told from its outline. -/
theorem isClosed_outline : l.outline.isClosed = l.isClosed := by
  have hclosed : min l.socket.cwnd 1 = 0 ↔ l.socket.cwnd = 0 := by omega
  rw [Bool.eq_iff_iff, isClosed_iff, isClosed_iff]
  exact hclosed

/-- Closing a window does not depend on its size. -/
theorem outline_suspend (extend : Nat) :
    (l.suspend extend).outline = l.outline.suspend extend := by
  unfold suspend
  rw [isClosed_outline]
  by_cases hclosed : l.isClosed = true
  · rw [if_pos hclosed, if_pos hclosed]
  · have hopen : min l.socket.cwnd 1 = 1 := by
      have hcwnd := mt l.isClosed_iff.mpr hclosed
      omega
    rw [if_neg hclosed, if_neg hclosed]
    simp [outline, Gate.outline, Socket.outline, hopen]

/-- Opening a window does not depend on the size of the saved one. -/
theorem outline_resume : l.resume.outline = l.outline.resume := by
  unfold resume
  rw [isClosed_outline]
  by_cases hclosed : l.isClosed = true
  · have hsmall : l.outline.gate.saved ≤ 1 := by
      show l.gate.outline.saved ≤ 1
      cases l.gate with
      | opened => exact Nat.zero_le _
      | suspended saved => exact Nat.le_refl _
    -- Either gate opens a window of at least one packet, of which the outline keeps one.
    have hsaved : min (max l.gate.saved minCwnd) 1 = max l.outline.gate.saved minCwnd := by
      simp only [minCwnd]
      omega
    rw [if_pos hclosed, if_pos hclosed, ← hsaved, outline, Socket.outline_wakeWriters]
    rfl
  · rw [if_neg hclosed, if_neg hclosed]
    rfl

/-- What the gate does does not depend on the sizes of windows. -/
theorem outline_act (span : Nat) (a : Action) : (l.act span a).outline = l.outline.act span a := by
  cases a with
  | suspend => exact l.outline_suspend span
  | resume => exact l.outline_resume
  | keep => rfl

/-- Raising the saved window does not show in the outline. -/
theorem outline_raiseSaved (cwnd : Nat) : (l.raiseSaved cwnd).outline = l.outline := by
  unfold raiseSaved
  split
  · rename_i saved hgate
    simp [outline, hgate, Gate.outline]
  · rfl

end Link

/-! ## Reports -/

/-- The report without the sizes of windows. -/
def Report.outline : Report → Report
  | .nothingToDo phase cwnd => .nothingToDo phase (min cwnd 1)
  | .suspended cwnd inFlight => .suspended (min cwnd 1) inFlight
  | .resumed cwnd inFlight => .resumed (min cwnd 1) inFlight
  | .alreadyOpen cwnd => .alreadyOpen (min cwnd 1)
  | report => report

namespace Link

variable (l : Link)

/-- The report on closing the outline of a window is the outline of the report. -/
theorem suspendReport_outline : l.outline.suspendReport = l.suspendReport.outline := by
  unfold suspendReport
  rw [isClosed_outline]
  by_cases hclosed : l.isClosed = true
  · rw [if_pos hclosed, if_pos hclosed]
    rfl
  · rw [if_neg hclosed, if_neg hclosed]
    rfl

/-- The report on opening the outline of a window is the outline of the report. -/
theorem resumeReport_outline : l.outline.resumeReport = l.resumeReport.outline := by
  unfold resumeReport
  rw [isClosed_outline, ← outline_resume]
  by_cases hclosed : l.isClosed = true
  · rw [if_pos hclosed, if_pos hclosed]
    rfl
  · rw [if_neg hclosed, if_neg hclosed]
    rfl

end Link

namespace Schedule

variable (sch : Schedule) (phase : Nat) (l : Link)

/-- An adoption of the outline is reported by the outlines of the reports. -/
theorem adoptReports_outline :
    sch.adoptReports phase l.outline = (sch.adoptReports phase l).map Report.outline := by
  simp only [adoptReports, adopt, ← Link.outline_act, Link.isClosed_outline,
    Link.suspendReport_outline]
  cases sch.adoptAction phase <;> rfl

/-- An acknowledgment to the outline is reported by the outlines of the reports. -/
theorem ackReports_outline :
    sch.ackReports phase l.outline = (sch.ackReports phase l).map Report.outline := by
  simp only [ackReports, Link.isClosed_outline, Link.suspendReport_outline,
    Link.resumeReport_outline]
  cases sch.ackAction phase l.isClosed <;> rfl

/-- A firing on the outline is reported by the outlines of the reports. -/
theorem fireReports_outline :
    sch.fireReports phase l.outline = (sch.fireReports phase l).map Report.outline := by
  have hestablished : l.outline.socket.established = l.socket.established := rfl
  simp only [fireReports, expire, ← Link.outline_act, Link.isClosed_outline,
    Link.suspendReport_outline, Link.resumeReport_outline, hestablished]
  by_cases h : l.socket.established = true
  · rw [if_pos h, if_pos h]
    cases sch.timerAction phase l.isClosed <;> rfl
  · rw [if_neg h, if_neg h]
    rfl

end Schedule

end Handover

/-- The notice without the sizes of windows. Nothing remains of what an engine has to say, and
reports on the schedule remain only if they are `logged`. -/
def Notice.outline? (logged : Bool) : Notice → Option Notice
  | .handover traceId report => if logged then some (.handover traceId report.outline) else none
  | .slowStartExit _ _ _ => none
  | notice => some notice

/-! ## Connections -/

namespace Connection

/-- The connection without its engine and without the sizes of its windows. Reno, which remembers
nothing, stands for any engine. Whether the schedule is logged remains only if that is asked for. -/
def outline (logged : Bool) (c : Connection) : Connection :=
  { c with
    link := c.link.outline
    engine := .reno
    schedule := { c.schedule with debug := logged && c.schedule.debug } }

variable {logged : Bool} (c : Connection)

/-- Bringing the gate in line with the clock does not depend on the engine. -/
theorem outline_reconcile (phase : Nat) :
    (c.reconcile phase).outline logged = (c.outline logged).reconcile phase := by
  have htimer : (c.outline logged).timer = c.timer := rfl
  unfold reconcile
  rw [htimer]
  by_cases h : c.timer.isSome = true
  · rw [if_pos h, if_pos h]
    simp only [outline, Schedule.reconcile, Link.outline_act, Link.isClosed_outline]
    rfl
  · rw [if_neg h, if_neg h]

/-- Whether a phase lies in a blackout can be told from the outline. -/
theorem inBlackout_outline (phase : Nat) :
    (c.outline logged).inBlackout phase = c.inBlackout phase := by
  simp only [inBlackout, outline, Link.isClosed_outline]
  rfl

/-- The delay to the next firing can be told from the outline. -/
theorem nextDelay_outline (phase : Nat) :
    (c.outline logged).nextDelay phase = c.nextDelay phase := by
  simp only [nextDelay, outline, Link.isClosed_outline]
  rfl

/-- A firing does not depend on the engine, and neither does its answer. -/
theorem fire_outline (phase : Nat) :
    (c.outline logged).fire phase = ((c.fire phase).1, (c.fire phase).2.outline logged) := by
  have hestablished : c.link.outline.socket.established = c.link.socket.established := rfl
  unfold fire
  cases htimer : c.timer with
  | none => simp [outline, htimer]
  | some id =>
      by_cases h : c.link.socket.established = true
      · simp only [outline, htimer, Schedule.fire, hestablished, if_pos h, Schedule.expire,
          Link.outline_act, Link.isClosed_outline, ← Link.isClosed_outline (l := c.link.act _ _)]
        rfl
      · simp [outline, htimer, Schedule.fire, hestablished, h]

/-- Adopting an algorithm leaves an outline that does not depend on it. -/
theorem outline_adopt : c.adopt.outline logged = (c.outline logged).adopt := by
  obtain ⟨ssthresh, hframe⟩ := c.adopt_frame
  unfold outline
  rw [hframe]
  rfl

/-- Adding handover awareness does not depend on the engine. -/
theorem outline_attach (timer phase : Nat) :
    (c.attach timer phase).outline logged = (c.outline logged).attach timer phase := by
  simp only [attach, outline, Schedule.adopt, Link.outline_act]
  rfl

/-- The handover notices of an outline are the outlines of those of the connection. -/
theorem handoverNotices_outline (reports : List Report) :
    (c.outline logged).handoverNotices (reports.map Report.outline) =
      (c.handoverNotices reports).filterMap (Notice.outline? logged) := by
  have hdebug : (c.outline logged).schedule.debug = (logged && c.schedule.debug) := rfl
  unfold handoverNotices
  rw [hdebug]
  by_cases h : c.schedule.debug = true
  · rw [if_pos h, List.filterMap_map]
    cases logged with
    | true =>
        rw [h, Bool.and_self, if_pos rfl, List.map_map, ← List.filterMap_eq_map]
        rfl
    | false => exact (List.filterMap_eq_nil_iff.mpr fun _ _ => rfl).symm
  · rw [if_neg h, if_neg (by simp [h])]
    rfl

/-- Adding handover awareness is logged without regard to the engine. -/
theorem attachNotices_outline (phase : Nat) :
    (c.outline logged).attachNotices phase =
      (c.attachNotices phase).filterMap (Notice.outline? logged) := by
  rw [attachNotices, attachNotices, ← handoverNotices_outline, ← Schedule.adoptReports_outline]
  rfl

/-- The check of an acknowledgment is logged without regard to the engine. -/
theorem ackNotices_outline (phase : Nat) :
    (c.outline logged).ackNotices phase =
      (c.ackNotices phase).filterMap (Notice.outline? logged) := by
  have hlooks : ((c.outline logged).link.socket.cwndLimited && (c.outline logged).timer.isSome) =
      (c.link.socket.cwndLimited && c.timer.isSome) := rfl
  unfold ackNotices
  rw [hlooks]
  by_cases h : (c.link.socket.cwndLimited && c.timer.isSome) = true
  · rw [if_pos h, if_pos h, ← handoverNotices_outline, ← Schedule.ackReports_outline]
    rfl
  · rw [if_neg h, if_neg h]
    rfl

/-- A firing is logged without regard to the engine. -/
theorem fireNotices_outline (phase : Nat) :
    (c.outline logged).fireNotices phase =
      (c.fireNotices phase).filterMap (Notice.outline? logged) := by
  have htimer : (c.outline logged).timer = c.timer := rfl
  unfold fireNotices
  rw [htimer]
  by_cases h : c.timer.isSome = true
  · rw [if_pos h, if_pos h, ← handoverNotices_outline, ← Schedule.fireReports_outline]
    rfl
  · rw [if_neg h, if_neg h]
    rfl

/-- Nothing remains of the notices of a sample. -/
theorem filterMap_sampleNotices (x : RttSample) :
    (c.sampleNotices x).filterMap (Notice.outline? logged) = [] := by
  rw [sampleNotices, List.filterMap_map, List.filterMap_eq_nil_iff]
  exact fun _ _ => rfl

end Connection

/-! ## Hosts -/

namespace Host

/-- The host with the outlines of the notices in its log. -/
def outline (logged : Bool) (h : Host) : Host :=
  { h with log := h.log.filterMap (Notice.outline? logged) }

variable {logged : Bool} (h : Host)

/-- A log grows by the outlines of notices if it grows by the notices. -/
theorem outline_note (notices : List Notice) :
    (h.note notices).outline logged =
      (h.outline logged).note (notices.filterMap (Notice.outline? logged)) := by
  have hlog : (h.log ++ notices).filterMap (Notice.outline? logged) =
      h.log.filterMap (Notice.outline? logged) ++ notices.filterMap (Notice.outline? logged) := by
    apply Array.ext'
    simp
  simp only [outline, note, hlog]

/-- Resynchronizing the clock does not depend on the log. -/
theorem outline_resync : h.resync.outline logged = (h.outline logged).resync := by
  simp only [resync, outline_note]
  rfl

/-- The turn of the resynchronization does not depend on the log. -/
theorem outline_serveSync : h.serveSync.outline logged = (h.outline logged).serveSync := by
  simp only [serveSync, ← outline_resync]
  rfl

/-- An operation on the clock does not depend on the log. -/
theorem outline_perform (op : ClockOp) :
    (h.perform op).outline logged = (h.outline logged).perform op := by
  cases op with
  | step s => rfl
  | resync => exact h.outline_resync
  | shutdown => rfl
  | start =>
      have havailable : (h.outline logged).timersAvailable = h.timersAvailable := rfl
      simp only [perform, startClock, havailable]
      cases h.timersAvailable with
      | error e => rfl
      | ok =>
          simp only [outline_note, ← outline_resync]
          rfl

end Host

/-! ## Sessions -/

/-- What commutes with serving a moment commutes with serving moment after moment. -/
theorem Ticker.drive_hom {σ : Type} {f : σ → σ} {sleeps : σ → List Sleep} {serve : Nat → σ → σ}
    (hsleeps : ∀ state, sleeps (f state) = sleeps state)
    (hserve : ∀ moment state, serve moment (f state) = f (serve moment state)) (last rounds : Nat)
    (state : σ) :
    drive sleeps serve last rounds (f state) = f (drive sleeps serve last rounds state) := by
  induction rounds generalizing state with
  | zero => rfl
  | succ rounds ih =>
      unfold drive
      rw [hsleeps]
      cases nextDue (sleeps state) last with
      | none => rfl
      | some moment =>
          simp only [hserve]
          exact ih _

namespace Session

open Timer (Outcome ScriptStep Target Task)

/-- The session without its engine, without the parameters of engines, and without the sizes of
windows. -/
def outline (logged : Bool) (s : Session) : Session :=
  { s with host := s.host.outline logged, config := {}, connection := s.connection.outline logged }

variable {logged : Bool} (s : Session)

/-- The position within the handover period can be told from the outline. -/
theorem phase_outline : (s.outline logged).host.phase = s.host.phase := rfl

/-- The log of an outline grows by the outlines of notices. -/
theorem outline_note (notices : List Notice) :
    (s.note notices).outline logged =
      (s.outline logged).note (notices.filterMap (Notice.outline? logged)) := by
  simp only [outline, note, Host.outline_note]

/-- Cancelling the timer does not depend on the engine. -/
theorem outline_cancelTimer : s.cancelTimer.outline logged = (s.outline logged).cancelTimer := by
  have htimer : (s.outline logged).connection.timer = s.connection.timer := rfl
  unfold cancelTimer
  rw [htimer]
  cases s.connection.timer <;> rfl

/-- The notices of cancelling the timer have no sizes of windows in them. -/
theorem filterMap_cancelNotices :
    s.cancelNotices.filterMap (Notice.outline? logged) = (s.outline logged).cancelNotices := by
  have htimer : (s.outline logged).connection.timer = s.connection.timer := rfl
  have htimers : (s.outline logged).timers = s.timers := rfl
  unfold cancelNotices
  rw [htimer, htimers]
  cases s.connection.timer with
  | none => rfl
  | some id =>
      simp only
      split <;> rfl

/-- Dropping the algorithm does not depend on the engine. -/
theorem outline_release : s.release.outline logged = (s.outline logged).release := by
  unfold release
  rw [outline_note, filterMap_cancelNotices, ← outline_cancelTimer]
  rfl

/-- Arming the timer does not depend on the engine. -/
theorem outline_attach (target : Target) :
    (s.attach target).outline logged = (s.outline logged).attach target := by
  have hconnection : (s.outline logged).connection = s.connection.outline logged := rfl
  simp only [attach, outline_note, phase_outline, hconnection,
    ← Connection.attachNotices_outline, ← Connection.outline_attach, Connection.nextDelay_outline]
  rfl

/-- Adopting an algorithm leaves an outline that does not depend on it. -/
theorem outline_adopt (target : Target) :
    (s.adopt target).outline logged = (s.outline logged).adopt target := by
  have hopened :
      ({ s.cancelTimer with
          connection := s.connection.adopt }.note s.cancelNotices).outline logged =
        { (s.outline logged).cancelTimer with
          connection := (s.outline logged).connection.adopt }.note
            (s.outline logged).cancelNotices := by
    rw [outline_note, filterMap_cancelNotices, ← outline_cancelTimer]
    show Session.note { s.cancelTimer.outline logged with
      connection := s.connection.adopt.outline logged } _ = _
    rw [Connection.outline_adopt]
    rfl
  unfold adopt
  simp only
  rw [← hopened]
  generalize { s.cancelTimer with connection := s.connection.adopt }.note s.cancelNotices = opened
  have henabled : (opened.outline logged).connection.schedule.enabled =
      opened.connection.schedule.enabled := rfl
  have havailable : (opened.outline logged).host.timersAvailable =
      opened.host.timersAvailable := rfl
  rw [henabled, havailable]
  by_cases h : opened.connection.schedule.enabled = true
  · rw [if_pos h, if_pos h]
    cases opened.host.timersAvailable with
    | ok => exact opened.outline_attach target
    | error e => exact opened.outline_note _
  · rw [if_neg h, if_neg h]

/-- A firing does not depend on the engine, and neither does its answer. -/
theorem fire_outline : (s.outline logged).fire = (s.fire.1, s.fire.2.outline logged) := by
  have hconnection : (s.outline logged).connection = s.connection.outline logged := rfl
  simp only [fire, phase_outline, hconnection, Connection.fire_outline, outline_note,
    Connection.fireNotices_outline]
  rfl

/-- A firing that must not wait does not depend on the engine, and neither does its answer. -/
theorem tryFire_outline (locked : Bool) :
    (s.outline logged).tryFire locked =
      ((s.tryFire locked).1, (s.tryFire locked).2.outline logged) := by
  cases locked with
  | true => rfl
  | false => exact s.fire_outline

/-- Beginning a firing does not depend on the engine. -/
theorem beginFiring?_outline (id : Nat) :
    (s.outline logged).beginFiring? id = (s.beginFiring? id).map (outline logged) := by
  have htimers : (s.outline logged).timers = s.timers := rfl
  unfold beginFiring?
  rw [htimers]
  cases (s.timers.record? id).bind (·.beginFiring?) <;> rfl

/-- Ending a task does not depend on the engine. -/
theorem outline_endTask (id : Nat) :
    (s.endTask id).outline logged = (s.outline logged).endTask id := by
  have htimers : (s.outline logged).timers = s.timers := rfl
  unfold endTask
  rw [outline_note, htimers]
  cases s.timers.releasePending id <;> rfl

/-- Ending a firing does not depend on the engine. -/
theorem endFiring_outline (id : Nat) (outcome : Outcome) :
    (s.outline logged).endFiring id outcome =
      ((s.endFiring id outcome).1.outline logged, (s.endFiring id outcome).2) := by
  have htimers : (s.outline logged).timers = s.timers := rfl
  unfold endFiring
  rw [htimers]
  cases delayAfter outcome with
  | none =>
      simp only [outline_endTask]
      rfl
  | some delay =>
      cases (s.timers.record? id).bind (·.endFiring?) with
      | none => simp only [outline_endTask]
      | some record => rfl

/-- The turn of a timer that fires the connection does not depend on the engine. -/
theorem outline_serveConnection (locked : Bool) (id : Nat) :
    (s.serveConnection locked id).outline logged =
      (s.outline logged).serveConnection locked id := by
  unfold serveConnection
  rw [beginFiring?_outline]
  cases s.beginFiring? id with
  | none => exact s.outline_endTask id
  | some begun =>
      simp only [Option.map_some, tryFire_outline, endFiring_outline]
      generalize begun.tryFire locked = fired
      rcases fired.2.endFiring id fired.1 with ⟨ended, _ | delay⟩ <;> rfl

/-- Playing a step of a script does not depend on the engine, and neither does the answer. -/
theorem play_outline (locked : Bool) (step : ScriptStep) :
    (s.outline logged).play locked step =
      ((s.play locked step).1, (s.play locked step).2.outline logged) := by
  cases step with
  | rearm delay => rfl
  | busy => rfl
  | stop => rfl
  | fire => exact s.tryFire_outline locked
  | release => simp only [play, outline_release]
  | releaseStop => simp only [play, outline_release]
  | readopt => simp only [play, outline_adopt]

/-- The turn of a timer with a script does not depend on the engine. -/
theorem outline_serveScript (locked : Bool) (id : Nat) (steps : List ScriptStep) :
    (serveScript locked id steps s).outline logged =
      serveScript locked id steps (s.outline logged) := by
  induction steps generalizing s with
  | nil =>
      unfold serveScript
      rw [beginFiring?_outline]
      cases s.beginFiring? id with
      | none => exact s.outline_endTask id
      | some begun =>
          have hrecord : (begun.outline logged).recordCall .stop =
              (begun.recordCall .stop).outline logged := rfl
          simp only [Option.map_some, hrecord, endFiring_outline]
  | cons step rest ih =>
      unfold serveScript
      rw [beginFiring?_outline]
      cases s.beginFiring? id with
      | none => exact s.outline_endTask id
      | some begun =>
          have hrecord : (begun.outline logged).recordCall step =
              (begun.recordCall step).outline logged := rfl
          simp only [Option.map_some, hrecord, play_outline, endFiring_outline]
          generalize (begun.recordCall step).play locked step = played
          rcases played.2.endFiring id played.1 with ⟨ended, _ | delay⟩
          · rfl
          -- The script goes on in the same turn if no millisecond is needed to cover the delay.
          · by_cases hsame : Nanos.coveringMillis delay = 0
            · simp only [if_pos hsame]
              exact ih ended
            · simp only [if_neg hsame]
              rfl

/-- The turn of a timer does not depend on the engine. -/
theorem outline_serveTask (locked : Bool) (task : Task) :
    (s.serveTask locked task).outline logged = (s.outline logged).serveTask locked task := by
  unfold serveTask
  cases task.target with
  | connection => exact s.outline_serveConnection locked task.id
  | script steps => exact s.outline_serveScript locked task.id steps

/-- Serving a sleep does not depend on the engine. -/
theorem outline_serveSleep (locked : Bool) (sleep : Sleep) :
    (serveSleep locked s sleep).outline logged = serveSleep locked (s.outline logged) sleep := by
  have hsync : (s.outline logged).host.clock.sync = s.host.clock.sync := rfl
  have htimers : (s.outline logged).timers = s.timers := rfl
  unfold serveSleep
  rw [hsync, htimers]
  by_cases h : s.host.clock.sync = some sleep
  · rw [if_pos h, if_pos h]
    simp only [outline, Host.outline_serveSync]
  · rw [if_neg h, if_neg h]
    cases s.timers.tasks.find? (·.sleep = sleep) with
    | none => rfl
    | some task => exact s.outline_serveTask locked task

/-- Serving a moment does not depend on the engine. -/
theorem outline_serve (locked : Bool) (moment : Nat) :
    (serve locked moment s).outline logged = serve locked moment (s.outline logged) :=
  (List.foldl_hom (outline logged) fun t sleep => (t.outline_serveSleep locked sleep).symm).symm

/-- Ending the tasks of all cancelled timers does not depend on the engine. -/
theorem outline_reap : s.reap.outline logged = (s.outline logged).reap :=
  (List.foldl_hom (outline logged) fun t task => (t.outline_endTask task.id).symm).symm

/-- Letting time pass does not depend on the engine. -/
theorem outline_run (ms : Nat) (locked : Bool) :
    (s.run ms locked).outline logged = (s.outline logged).run ms locked := by
  have hnow : (s.outline logged).host.ticker.now = s.host.ticker.now := rfl
  have hserve : ∀ moment (t : Session),
      serve locked moment (t.outline logged) = (serve locked moment t).outline logged :=
    fun moment t => (t.outline_serve locked moment).symm
  have hsleeps : ∀ t : Session, sleeps (t.outline logged) = sleeps t := fun _ => rfl
  have hdriven :=
    Ticker.drive_hom hsleeps hserve (s.host.ticker.now + ms) (ms + 1) s.reap
  simp only [run, hnow, ← outline_reap, hdriven]
  rfl

end Session

end LowOrbit

import LowOrbit.Proofs.Coherence
import LowOrbit.Proofs.Events

/-!
# Wake-ups and deadlines

Closing the window of a connection puts a pending retransmission deadline off, and opening it wakes
up writers. Both can happen at an adoption, at an acknowledgment and at a firing of the timer, and
each of these may find that there is nothing left to do. The accounts nevertheless agree with the
window itself (`Connection.wakeUps_and_rto_handleAll`): from an adoption on, writers are woken up as
often as the window opens in front of them, and the deadline moves as often as it closes.
-/

namespace LowOrbit

open Handover (Action Link)
open Socket (Edit Features)

/-! ## Sockets -/

namespace Socket

/-- The number of times, one or none, that a step from `s` to `s'` opens the window in front of
waiting writers. -/
def opening (s s' : Socket) : Nat :=
  if s.cwnd = 0 ∧ s'.cwnd ≠ 0 ∧ s.writeBlocked = true then 1 else 0

/-- The number of times, one or none, that a step from `s` to `s'` closes the window. -/
def closing (s s' : Socket) : Nat := if s.cwnd ≠ 0 ∧ s'.cwnd = 0 then 1 else 0

/-- A step from `s` to `s'` wakes up writers if it opens the window, and puts the deadline off by
`span` if it closes it. -/
structure Accounts (span : Nat) (s s' : Socket) : Prop where
  wakeUps_eq : s'.wakeUps = s.wakeUps + s.opening s'
  rto_eq : s'.rto = s.rto.map (· + span * s.closing s')

/-- The windows are both open or both closed, and the wake-ups and the deadlines are the same. -/
structure Alike (s s' : Socket) : Prop where
  closed_iff : s'.cwnd = 0 ↔ s.cwnd = 0
  wakeUps_eq : s'.wakeUps = s.wakeUps
  rto_eq : s'.rto = s.rto

variable {span : Nat} {s s' s'' : Socket}

/-- A step that keeps the books may be followed by one that nobody notices. -/
theorem Accounts.trans_alike (h : Accounts span s s') (halike : Alike s' s'') :
    Accounts span s s'' := by
  have hopening : s.opening s'' = s.opening s' := by
    simp only [opening, Ne, halike.closed_iff]
  have hclosing : s.closing s'' = s.closing s' := by
    simp only [closing, halike.closed_iff]
  refine ⟨?_, ?_⟩
  · rw [halike.wakeUps_eq, hopening]
    exact h.wakeUps_eq
  · rw [halike.rto_eq, hclosing]
    exact h.rto_eq

/-- Doing nothing keeps the books. -/
theorem Accounts.refl (span : Nat) (s : Socket) : Accounts span s s := by
  have hopening : s.opening s = 0 := if_neg fun h => h.2.1 h.1
  have hclosing : s.closing s = 0 := if_neg fun h => h.1 h.2
  refine ⟨by rw [hopening, Nat.add_zero], ?_⟩
  rw [hclosing, Nat.mul_zero]
  cases s.rto <;> rfl

/-- A step that nobody notices keeps the books. -/
theorem Alike.accounts (h : Alike s s') (span : Nat) : Accounts span s s' :=
  (Accounts.refl span s).trans_alike h

/-- If the window is open before and after, it is enough that wake-ups and deadline stay. -/
theorem alike_of_pos (hs : 0 < s.cwnd) (hs' : 0 < s'.cwnd) (hwakeUps : s'.wakeUps = s.wakeUps)
    (hrto : s'.rto = s.rto) : Alike s s' :=
  ⟨by omega, hwakeUps, hrto⟩

/-- Whatever the features are, a socket is presented with its wake-ups and its deadline. -/
theorem Features.present_frame (f : Features) (s : Socket) :
    (f.present s).wakeUps = s.wakeUps ∧ (f.present s).rto = s.rto := by
  cases f <;> exact ⟨rfl, rfl⟩

/-- Presenting a socket is a step that nobody notices. -/
theorem Alike.present (h : Alike s s') (f : Features) : Alike s (f.present s') where
  closed_iff := by
    rw [f.cwnd_present]
    exact h.closed_iff
  wakeUps_eq := (f.present_frame s').1.trans h.wakeUps_eq
  rto_eq := (f.present_frame s').2.trans h.rto_eq

end Socket

namespace Handover.Link

/-- What the gate does keeps the books: it puts the deadline off when it closes the window, wakes up
writers when it opens it, and does neither if the window is as it should be. -/
theorem accounts_act (l : Link) (span : Nat) (a : Action) :
    Socket.Accounts span l.socket (l.act span a).socket := by
  cases a with
  | keep => exact Socket.Accounts.refl span l.socket
  | suspend =>
      show Socket.Accounts span l.socket (l.suspend span).socket
      unfold Link.suspend
      split
      · exact Socket.Accounts.refl span l.socket
      · rename_i hopen
        have hcwnd : l.socket.cwnd ≠ 0 := mt l.isClosed_iff.mpr hopen
        constructor <;> simp [Socket.opening, Socket.closing, hcwnd]
  | resume =>
      show Socket.Accounts span l.socket l.resume.socket
      have hopened : l.resume.socket.cwnd ≠ 0 := Nat.ne_of_gt l.cwnd_resume_pos
      unfold Link.resume at hopened ⊢
      split
      · rename_i hclosed
        have hcwnd := l.isClosed_iff.mp hclosed
        rw [if_pos hclosed] at hopened
        constructor <;>
          cases hblocked : l.socket.writeBlocked <;>
            simp_all [Socket.opening, Socket.closing, Socket.wakeWriters]
      · exact Socket.Accounts.refl span l.socket

end Handover.Link

/-! ## Connections -/

namespace Connection

/-- The connection has no timer, an open window, and a clamp that keeps it open. -/
structure Unaware (c : Connection) : Prop where
  cwnd_pos : 0 < c.link.socket.cwnd
  clamp_pos : 0 < c.link.socket.clamp
  timer_eq : c.timer = none

variable {c : Connection}

/-- Without a timer, an acknowledgment grows the window or does nothing. -/
theorem Unaware.ack_cases (h : c.Unaware) (phase acked : Nat) :
    c.ack phase acked = c ∨ c.ack phase acked = c.grow acked := by
  have hreconcile : c.reconcile phase = c := by simp [reconcile, h.timer_eq]
  have hout : c.inBlackout phase = false := by simp [inBlackout, h.timer_eq]
  rcases c.ack_cases phase acked with ⟨-, heq⟩ | ⟨-, hin, -⟩ | ⟨-, -, heq⟩
  · exact .inl heq
  · rw [hout] at hin
    cases hin
  · exact .inr (by rw [heq, hreconcile])

/-- Without a timer, a firing does nothing. -/
theorem Unaware.fire_eq (h : c.Unaware) (phase : Nat) : (c.fire phase).2 = c := by
  simp [fire, h.timer_eq]

/-- A write that keeps window and clamp positive leaves an unaware connection unaware. -/
theorem Unaware.mapSocket (h : c.Unaware) {f : Socket → Socket}
    (hcwnd : 0 < (f c.link.socket).cwnd) (hclamp : 0 < (f c.link.socket).clamp) :
    (c.mapSocket f).Unaware :=
  ⟨hcwnd, hclamp, h.timer_eq⟩

/-- The window that a loss leaves behind is not zero. -/
theorem lossThreshold_pos (c : Connection) : 0 < c.lossThreshold :=
  Nat.lt_of_lt_of_le (by decide) (c.engine.minThreshold_le_lossThreshold _)

/-- Being unaware is stable: nothing closes the window of a connection without a timer. -/
theorem stable_unaware : Stable Edit.SparesWindow Unaware where
  ack c phase acked h := by
    rcases h.ack_cases phase acked with heq | heq <;> rw [heq]
    · exact h
    · obtain ⟨cwnd, credit, hframe⟩ := c.engine.grow_frame c.link.socket acked
      refine ⟨Engine.cwnd_grow_pos h.cwnd_pos h.clamp_pos c.engine acked, ?_, h.timer_eq⟩
      show 0 < (c.engine.grow c.link.socket acked).2.clamp
      rw [hframe]
      exact h.clamp_pos
  sample c x h := by
    obtain ⟨ssthresh, hframe⟩ := c.engine.sample_frame c.link.socket x
    refine ⟨?_, ?_, h.timer_eq⟩
    · show 0 < (c.engine.sample c.link.socket x).2.cwnd
      rw [hframe]
      exact h.cwnd_pos
    · show 0 < (c.engine.sample c.link.socket x).2.clamp
      rw [hframe]
      exact h.clamp_pos
  reduce _ h := ⟨h.cwnd_pos, h.clamp_pos, h.timer_eq⟩
  undo c h := by
    have hsocket := c.link.socket_raiseSaved c.link.socket.priorCwnd
    exact ⟨hsocket ▸ h.cwnd_pos, hsocket ▸ h.clamp_pos, h.timer_eq⟩
  changeState _ _ h := ⟨h.cwnd_pos, h.clamp_pos, h.timer_eq⟩
  windowEvent _ _ h := ⟨h.cwnd_pos, h.clamp_pos, h.timer_eq⟩
  fire c phase h := by
    rw [h.fire_eq]
    exact h
  shrink c features h := by
    refine ⟨?_, features.clamp_present_pos h.clamp_pos, h.timer_eq⟩
    show 0 < (features.present (Session.shrink c.lossThreshold c.link.socket)).cwnd
    rw [Features.cwnd_present, show (Session.shrink c.lossThreshold c.link.socket).cwnd =
      c.lossThreshold from if_neg (Nat.ne_of_gt h.cwnd_pos)]
    exact c.lossThreshold_pos
  restore c features h := by
    have hsocket := c.link.socket_raiseSaved c.link.socket.priorCwnd
    refine ⟨?_, features.clamp_present_pos (hsocket ▸ h.clamp_pos), h.timer_eq⟩
    show 0 < (features.present { c.undo.link.socket with cwnd := c.undoCwnd }).cwnd
    rw [Features.cwnd_present]
    have hopen := h.cwnd_pos
    simp only [undoCwnd, Socket.undoWindow]
    split <;> omega
  advance _ features _ h := by
    refine h.mapSocket ?_ (features.clamp_present_pos h.clamp_pos)
    rw [Features.cwnd_present]
    exact h.cwnd_pos
  edit _ features _ he h := by
    refine h.mapSocket ?_ (features.clamp_present_pos (Socket.clamp_edit_pos he.2 h.clamp_pos))
    rw [Features.cwnd_present, Socket.cwnd_edit he.1]
    exact h.cwnd_pos

/-- The window of the connection is never closed, or only while the gate is suspended. -/
def Attended (c : Connection) : Prop := c.Serving ∨ c.Unaware

/-- Being attended is stable. -/
theorem stable_attended : Stable Edit.SparesWindow Attended :=
  stable_of_handle fun _ _ he h => h.imp (stable_serving.handle he) (stable_unaware.handle he)

/-- Adopting the algorithm makes a connection with an open window an attended one. -/
theorem attended_adopt (hcwnd : 0 < c.socket.cwnd) (hclamp : 0 < c.socket.clamp)
    (handover : Option (Nat × Nat)) : (c.handle (.adopt handover)).Attended := by
  cases handover with
  | none =>
      obtain ⟨ssthresh, hframe⟩ := c.adopt_frame
      refine .inr ⟨?_, ?_, rfl⟩
      · show 0 < c.adopt.link.socket.cwnd
        rw [hframe]
        exact hcwnd
      · show 0 < c.adopt.link.socket.clamp
        rw [hframe]
        exact hclamp
  | some => exact .inl (serving_attach hcwnd hclamp _ _)

/-! ## One step -/

/-- The event may act on the gate: an adoption, an acknowledgment or a firing of the timer. -/
def Event.ActsOnGate : Event → Prop
  | .adopt _ | .ack _ _ | .fire _ => True
  | _ => False

/-- Only a connection with an open window grows, after it has been brought in line with the
clock. -/
theorem Attended.cwnd_reconcile_pos (h : c.Attended) {phase : Nat}
    (hout : c.inBlackout phase = false) : 0 < (c.reconcile phase).link.socket.cwnd := by
  rcases h with hserving | hunaware
  · have hopen := isClosed_reconcile_of_not_inBlackout hserving.timer_isSome hout
    exact (Link.isClosed_eq_false_iff _).mp hopen
  · rw [show c.reconcile phase = c by simp [reconcile, hunaware.timer_eq]]
    exact hunaware.cwnd_pos

/-- The window to restore is zero only if the present one is. -/
theorem Attended.undoCwnd_eq_zero_iff (h : c.Attended) :
    c.undoCwnd = 0 ↔ c.link.socket.cwnd = 0 := by
  cases hgate : c.isSuspended with
  | true => simp [undoCwnd, hgate]
  | false =>
      have hopen : 0 < c.link.socket.cwnd := by
        rcases h with hserving | hunaware
        · exact hserving.link hgate
        · exact hunaware.cwnd_pos
      simp only [undoCwnd, hgate, Socket.undoWindow, Bool.false_eq_true, if_false]
      omega

/-- Bringing the gate in line with the clock keeps the books. -/
theorem accounts_reconcile (c : Connection) (phase : Nat) :
    Socket.Accounts c.schedule.window.span c.socket (c.reconcile phase).socket := by
  unfold reconcile
  split
  · exact c.link.accounts_act _ _
  · exact Socket.Accounts.refl _ _

/-- An acknowledgment keeps the books. -/
theorem Attended.accounts_ack (h : c.Attended) (phase acked : Nat) :
    Socket.Accounts c.schedule.window.span c.socket (c.ack phase acked).socket := by
  rcases c.ack_cases phase acked with ⟨-, heq⟩ | ⟨-, -, heq⟩ | ⟨-, hout, heq⟩ <;> rw [heq]
  · exact Socket.Accounts.refl _ _
  · exact c.accounts_reconcile phase
  · have hopen := h.cwnd_reconcile_pos hout
    have hclamp : 0 < (c.reconcile phase).link.socket.clamp := by
      rw [clamp_reconcile]
      exact h.elim (·.clamp_pos) (·.clamp_pos)
    have hgrown := Engine.cwnd_grow_pos hopen hclamp (c.reconcile phase).engine acked
    obtain ⟨cwnd, credit, hframe⟩ :=
      (c.reconcile phase).engine.grow_frame (c.reconcile phase).link.socket acked
    refine (c.accounts_reconcile phase).trans_alike (Socket.alike_of_pos hopen hgrown ?_ ?_)
    · show ((c.reconcile phase).engine.grow (c.reconcile phase).link.socket acked).2.wakeUps = _
      rw [hframe]
      rfl
    · show ((c.reconcile phase).engine.grow (c.reconcile phase).link.socket acked).2.rto = _
      rw [hframe]
      rfl

/-- A firing keeps the books. -/
theorem accounts_fire (c : Connection) (phase : Nat) :
    Socket.Accounts c.schedule.window.span c.socket (c.fire phase).2.socket := by
  simp only [fire, Handover.Schedule.fire]
  split
  · split
    · exact c.link.accounts_act _ _
    · exact Socket.Accounts.refl _ _
  · exact Socket.Accounts.refl _ _

/-- An adoption keeps the books. -/
theorem accounts_adopt (c : Connection) (handover : Option (Nat × Nat)) :
    Socket.Accounts c.schedule.window.span c.socket (c.handle (.adopt handover)).socket := by
  obtain ⟨ssthresh, hframe⟩ := c.adopt_frame
  cases handover with
  | none =>
      have halike : Socket.Alike c.socket c.adopt.link.socket := by
        rw [hframe]
        exact ⟨Iff.rfl, rfl, rfl⟩
      exact halike.accounts _
  | some armed =>
      have hacted := c.adopt.link.accounts_act c.schedule.window.span
        (c.adopt.schedule.adoptAction armed.2)
      rw [hframe] at hacted
      show Socket.Accounts _ c.link.socket (c.adopt.link.act c.schedule.window.span _).socket
      rw [hframe]
      exact ⟨hacted.wakeUps_eq, hacted.rto_eq⟩

/-- What does not act on the gate is not noticed, as long as it writes neither window nor deadline
at will. -/
theorem Attended.alike_handle (h : c.Attended) {e : Event}
    (he : e.Reports fun e => e.SparesWindow ∧ e.rto = none) (hgate : ¬ e.ActsOnGate) :
    Socket.Alike c.socket (c.handle e).socket := by
  have hsame : Socket.Alike c.socket c.socket := ⟨Iff.rfl, rfl, rfl⟩
  have hundo : c.undo.socket = c.socket := c.link.socket_raiseSaved _
  cases e with
  | adopt handover => exact he.elim
  | release => exact he.elim
  | renew config => exact he.elim
  | ack phase acked => exact absurd trivial hgate
  | fire phase => exact absurd trivial hgate
  | reduce => exact hsame
  | changeState state => exact hsame
  | windowEvent event => exact hsame
  | sample x =>
      obtain ⟨ssthresh, hframe⟩ := c.engine.sample_frame c.link.socket x
      show Socket.Alike c.link.socket (c.engine.sample c.link.socket x).2
      rw [hframe]
      exact ⟨Iff.rfl, rfl, rfl⟩
  | undo =>
      show Socket.Alike c.socket c.undo.socket
      rw [hundo]
      exact hsame
  | shrink features =>
      have hshrunk : Socket.Alike c.socket (Session.shrink c.lossThreshold c.socket) := by
        refine ⟨?_, rfl, rfl⟩
        have hthreshold := c.lossThreshold_pos
        simp only [Session.shrink]
        split <;> omega
      exact hshrunk.present features
  | restore features =>
      have hrestored : Socket.Alike c.socket { c.undo.socket with cwnd := c.undoCwnd } := by
        rw [hundo]
        exact ⟨h.undoCwnd_eq_zero_iff, rfl, rfl⟩
      exact hrestored.present features
  | advance features d =>
      have hadvanced : Socket.Alike c.socket (c.socket.advance d) := ⟨Iff.rfl, rfl, rfl⟩
      exact hadvanced.present features
  | edit features e =>
      have hedited : Socket.Alike c.socket (c.socket.edit e) := by
        refine ⟨by rw [Socket.cwnd_edit he.1.1], rfl, ?_⟩
        simp [Socket.edit, he.2]
      exact hedited.present features

/-- Every report keeps the books. -/
theorem Attended.accounts_handle (h : c.Attended) {e : Event}
    (he : e.Reports fun e => e.SparesWindow ∧ e.rto = none) :
    Socket.Accounts c.schedule.window.span c.socket (c.handle e).socket := by
  by_cases hgate : e.ActsOnGate
  · cases e with
    | adopt handover => exact he.elim
    | ack phase acked => exact h.accounts_ack phase acked
    | fire phase => exact c.accounts_fire phase
    | _ => exact hgate.elim
  · exact (h.alike_handle he hgate).accounts _

/-- An event leaves the schedule alone. -/
theorem schedule_handle (c : Connection) (e : Event) : (c.handle e).schedule = c.schedule := by
  cases e with
  | adopt handover => cases handover <;> rfl
  | ack phase acked => exact c.schedule_ack phase acked
  | fire phase => exact c.schedule_fire phase
  | _ => rfl

/-! ## All steps -/

/-- The number of events that open the window in front of waiting writers. -/
def openings (c : Connection) : List Event → Nat
  | [] => 0
  | e :: rest => c.socket.opening (c.handle e).socket + (c.handle e).openings rest

/-- The number of events that close the window. -/
def closings (c : Connection) : List Event → Nat
  | [] => 0
  | e :: rest => c.socket.closing (c.handle e).socket + (c.handle e).closings rest

/-- The wake-ups and the deadline of `c'` are what follows from those of `c` if the window opens and
closes in the course of some events as it does. -/
structure Settles (c : Connection) (events : List Event) (c' : Connection) : Prop where
  wakeUps_eq : c'.socket.wakeUps = c.socket.wakeUps + c.openings events
  rto_eq : c'.socket.rto =
    c.socket.rto.map (· + c.schedule.window.span * c.closings events)

/-- A first event that keeps the books, followed by others that settle, settles. -/
theorem Settles.cons {e : Event} {rest : List Event} {c' : Connection}
    (hstep : Socket.Accounts c.schedule.window.span c.socket (c.handle e).socket)
    (hrest : (c.handle e).Settles rest c') : c.Settles (e :: rest) c' where
  wakeUps_eq := by
    rw [hrest.wakeUps_eq, hstep.wakeUps_eq, openings, Nat.add_assoc]
  rto_eq := by
    rw [hrest.rto_eq, hstep.rto_eq, schedule_handle, closings, Option.map_map]
    congr 1
    funext deadline
    simp only [Function.comp_apply, Nat.mul_add, Nat.add_assoc]

/-- Reports to an attended connection settle. The induction is on the events, and being attended
carries it. -/
theorem Attended.settles (h : c.Attended) {events : List Event}
    (hevents : ∀ e ∈ events, e.Reports fun e => e.SparesWindow ∧ e.rto = none) :
    c.Settles events (c.handleAll events) := by
  induction events generalizing c with
  | nil =>
      refine ⟨rfl, ?_⟩
      simp [closings, handleAll]
  | cons e rest ih =>
      have he := hevents e List.mem_cons_self
      have hstep := h.accounts_handle he
      have hspares : e.Reports Edit.SparesWindow := he.imp fun _ he => he.1
      exact Settles.cons hstep (ih (stable_attended.handle hspares h) fun other hmem =>
        hevents other (List.mem_cons_of_mem _ hmem))

/-- Let a connection with an open window adopt the algorithm, with handover awareness or without,
and go on with any events that neither adopt nor drop it, at whatever phases, with a clamp that is
never zero. If the host does not write the deadline, and writes the window by carrying out answers
only, then writers are woken up exactly as often as the window opens in front of them, and the
deadline, if there is one, is put off by the span of the handover window exactly as often as the
window closes. What happens apart from adoption, acknowledgments and firings touches neither. -/
theorem wakeUps_and_rto_handleAll (c : Connection) (handover : Option (Nat × Nat))
    (events : List Event) (hcwnd : 0 < c.socket.cwnd) (hclamp : 0 < c.socket.clamp)
    (hevents : ∀ e ∈ events, e.Reports fun e => e.SparesWindow ∧ e.rto = none) :
    let run := .adopt handover :: events
    let finish := c.handleAll run
    finish.socket.wakeUps = c.socket.wakeUps + c.openings run ∧
      finish.socket.rto = c.socket.rto.map (· + c.schedule.window.span * c.closings run) ∧
      ∀ e : Event, (e.Reports fun e => e.SparesWindow ∧ e.rto = none) → ¬ e.ActsOnGate →
        (finish.handle e).socket.wakeUps = finish.socket.wakeUps ∧
          (finish.handle e).socket.rto = finish.socket.rto := by
  intro run finish
  have hadopted := attended_adopt hcwnd hclamp handover
  have hsettled : c.Settles run finish :=
    Settles.cons (c.accounts_adopt handover) (hadopted.settles hevents)
  have hspares : ∀ e ∈ events, e.Reports Edit.SparesWindow := fun e hmem =>
    (hevents e hmem).imp fun _ he => he.1
  have hattended : ((c.handle (.adopt handover)).handleAll events).Attended :=
    stable_attended.handleAll hspares hadopted
  have hfinish : finish.Attended := hattended
  refine ⟨hsettled.wakeUps_eq, hsettled.rto_eq, fun e he hgate => ?_⟩
  have halike := hfinish.alike_handle he hgate
  exact ⟨halike.wakeUps_eq, halike.rto_eq⟩

/-- The connection of the example, with waiting writers and a deadline: it is closed when it adopts
the algorithm, stays closed through a loss, and is opened by its timer 200 ms later. The next
acknowledgment finds it open, and the one after that closes it for the next handover. -/
theorem wakeUps_and_rto_handleAll_atHandover :
    let start := Session.atHandover.connection.mapSocket fun s =>
      { s with writeBlocked := true, rto := some 1000000000 }
    let finish := start.handleAll [.adopt (some (0, Handover.instant)), .shrink .full,
      .fire 12200000000, .ack 12500000000 3, .ack 11800000000 3]
    finish.socket.wakeUps = 1 ∧ finish.socket.rto = some 1800000000 := by
  have hall := wakeUps_and_rto_handleAll
    (Session.atHandover.connection.mapSocket fun s =>
      { s with writeBlocked := true, rto := some 1000000000 })
    (some (0, Handover.instant))
    [.shrink .full, .fire 12200000000, .ack 12500000000 3, .ack 11800000000 3]
    (by decide) (by decide) (by simp [Event.Reports])
  exact ⟨hall.1.trans (by decide), hall.2.1.trans (by decide)⟩

end Connection

end LowOrbit

import LowOrbit.Proofs.Beats
import LowOrbit.Proofs.Blackouts

/-!
# Deadlines across handovers

A suspension is not to be read as a timeout, so closing the window puts the retransmission deadline
off by the length of the handover window. Acknowledgments and the timer both close the window, and
`Timed.postponements_of_run` says that they do so once in each handover window, wherever the
acknowledgments fall, with one exception: an acknowledgment at the very end of the window that comes
in after the timer has fired there closes it for another millisecond, and the deadline is put off
twice.
-/

namespace LowOrbit

open Handover (Postponement Schedule Window period minDelay jitter)

/-! ## Single steps -/

namespace Timed

/-- The change of the deadline, if any, that takes one moment to the other. -/
def postponement (first : Nat) (t t' : Timed) : List Postponement :=
  if t'.connection.socket.rto = t.connection.socket.rto then []
  else [⟨first + t'.now, t'.connection.socket.rto.getD 0 - t.connection.socket.rto.getD 0⟩]

/-- The changes of the deadline in the course of a run. -/
def postponements (first : Nat) (t : Timed) : List Beat → List Postponement
  | [] => []
  | b :: rest => t.postponement first (t.beat first b) ++ (t.beat first b).postponements first rest

/-- The moment of an acknowledgment that is looked at, if that is the end of a handover window at
which the timer does not have to fire any more. -/
def straggler (first : Nat) (t : Timed) : Beat → List Nat
  | .ack _ =>
    if t.connection.socket.cwndLimited ∧
        phaseAt first t.now = t.connection.schedule.window.finish ∧ t.due ≠ some t.now then
      [first + t.now]
    else []
  | _ => []

/-- The moments of such acknowledgments in the course of a run. -/
def stragglers (first : Nat) (t : Timed) : List Beat → List Nat
  | [] => []
  | b :: rest => t.straggler first b ++ (t.beat first b).stragglers first rest

variable {sch : Schedule} {first : Nat} {t t' : Timed} {log : List Postponement} {late : List Nat}

/-- Every beat that fits keeps the books: it puts the deadline off if it closes the window. -/
theorem Serves.accounts (h : Serves sch t) {b : Beat} (hfits : b.Fits t) :
    Socket.Accounts sch.window.span t.connection.socket (t.beat first b).connection.socket := by
  obtain ⟨rfl, -, hserving⟩ := h
  cases b with
  | wait d => exact Socket.Accounts.refl _ _
  | ack acked => exact Connection.Attended.accounts_ack (.inl hserving) _ acked
  | hear e => exact Connection.Attended.accounts_handle (.inl hserving) hfits.1
  | fire => exact Connection.accounts_fire _ _

/-- Whether an acknowledgment is a straggler depends on the present and the timer, if it is looked at
at all. -/
theorem straggler_ack (h : Serves sch t) {due : Nat} (hdue : t.due = some due) (acked : Nat) :
    t.straggler first (.ack acked) =
      if t.connection.socket.cwndLimited then
        sch.window.straggling (first + t.now) (first + due)
      else [] := by
  obtain ⟨rfl, -, -⟩ := h
  have hsame : some due ≠ some t.now ↔ first + due ≠ first + t.now := by
    rw [Ne, Option.some_inj, Ne, Nat.add_left_cancel_iff]
  simp only [straggler, hdue, hsame]
  cases t.connection.socket.cwndLimited with
  | true => simp only [true_and, if_true]; rfl
  | false => simp

/-- If the books are kept, a pending deadline goes on pending, and is put off by the length of the
handover window when the window closes, and only then. -/
theorem postponement_of_accounts {w : Window} (hspan : 0 < w.span)
    (haccounts : Socket.Accounts w.span t.connection.socket t'.connection.socket)
    (hpending : t.connection.socket.rto.isSome = true) (first : Nat) :
    t'.connection.socket.rto.isSome = true ∧
      t.postponement first t' = w.extension (first + t'.now) t.connection.link.isClosed
        t'.connection.link.isClosed := by
  have hrto := haccounts.rto_eq
  obtain ⟨deadline, hdeadline⟩ := Option.isSome_iff_exists.mp hpending
  rw [hdeadline, Option.map_some] at hrto
  refine ⟨by rw [hrto]; rfl, ?_⟩
  have hcloses : t.connection.link.isClosed = false ∧ t'.connection.link.isClosed = true ↔
      t.connection.socket.cwnd ≠ 0 ∧ t'.connection.socket.cwnd = 0 := by
    rw [Handover.Link.isClosed_iff, ← Bool.not_eq_true, Handover.Link.isClosed_iff]
    rfl
  unfold postponement Window.extension
  rw [hrto, hdeadline]
  by_cases h : t.connection.socket.cwnd ≠ 0 ∧ t'.connection.socket.cwnd = 0
  · have hmoved : some (deadline + w.span) ≠ some deadline := fun hsame => by
      have hsame := Option.some.inj hsame
      omega
    rw [Socket.closing, if_pos h, Nat.mul_one, if_neg hmoved, if_pos (hcloses.mpr h),
      Option.getD_some, Option.getD_some, Nat.add_sub_cancel_left]
  · rw [Socket.closing, if_neg h, Nat.mul_zero, Nat.add_zero, if_pos rfl,
      if_neg (mt hcloses.mp h)]

/-! ## Runs -/

/-- What holds of a connection in time after the postponements in `log` and the stragglers in
`late`. -/
structure Recorded (sch : Schedule) (first : Nat) (log : List Postponement) (late : List Nat)
    (t : Timed) : Prop where
  serves : Serves sch t
  pending : t.connection.socket.rto.isSome = true
  recounts : ∃ due k, t.due = some due ∧
    sch.window.Recounts first (first + t.now) (first + due) t.connection.link.isClosed log late k

/-- A connection that adopts the algorithm outside of the handover window starts with nothing on
record. -/
theorem recorded_adopted {s : Session} (hcwnd : 0 < s.connection.socket.cwnd)
    (hclamp : 0 < s.connection.socket.clamp) (hmode : s.connection.schedule.timerOnly = false)
    (hout : s.connection.schedule.window.contains s.host.phase = false)
    (harmed : (s.adopt .connection).connection.timer.isSome = true)
    (hpending : s.connection.socket.rto.isSome = true) :
    Recorded s.connection.schedule s.host.phase [] [] (adopted s) := by
  obtain ⟨hserves, hclosed, hdue⟩ := serves_adopted hcwnd hclamp hmode harmed
  have hphase : s.host.phase < period := Nat.mod_lt _ (by decide)
  obtain ⟨k, hrecounts⟩ := Window.recounts_nil s.connection.schedule.window hphase hout
  refine ⟨hserves, ?_, _, k, hdue, ?_⟩
  · have hadopted : (s.adopt .connection).connection =
        s.connection.handle (.adopt (some (s.timers.nextId, s.host.phase))) :=
      Session.connection_adopt_of_armed harmed
    show (s.adopt .connection).connection.socket.rto.isSome = true
    rw [hadopted, (s.connection.accounts_adopt _).rto_eq, Option.isSome_map]
    exact hpending
  · rw [hclosed, hout]
    exact hrecounts

/-- Every beat that fits adds to the record what it does. -/
theorem Recorded.beat (h : Recorded sch first log late t)
    (hwidth : sch.window.start + jitter + 2 * minDelay ≤ sch.window.finish) {b : Beat}
    (hfits : b.Fits t) :
    Recorded sch first (log ++ t.postponement first (t.beat first b))
      (late ++ t.straggler first b) (t.beat first b) := by
  obtain ⟨hserves, hpending, due, k, hdue, hrecounts⟩ := h
  have hspan : 0 < sch.window.span := by
    have hjitter : 0 < jitter := by decide
    unfold Window.span
    omega
  obtain ⟨hpending', hpostponement⟩ :=
    postponement_of_accounts hspan (hserves.accounts hfits) hpending first
  refine ⟨hserves.beat hfits, hpending', ?_⟩
  rw [hpostponement]
  cases b with
  | wait d =>
      refine ⟨due, k, hdue, ?_⟩
      show sch.window.Recounts first _ _ t.connection.link.isClosed
        (log ++ sch.window.extension _ t.connection.link.isClosed t.connection.link.isClosed)
        (late ++ []) k
      rw [Window.extension_self, List.append_nil, List.append_nil]
      exact hrecounts.wait (Nat.add_le_add_left (Nat.le_add_right _ _) _)
        (Nat.add_le_add_left (hfits due hdue) _)
  | hear e =>
      refine ⟨due, k, hdue, ?_⟩
      rw [hserves.isClosed_hear hfits, Window.extension_self]
      show sch.window.Recounts first _ _ _ (log ++ []) (late ++ []) k
      rw [List.append_nil, List.append_nil]
      exact hrecounts
  | ack acked =>
      refine ⟨due, k, hdue, ?_⟩
      rw [hserves.isClosed_ack, straggler_ack hserves hdue]
      cases t.connection.socket.cwndLimited with
      | true => exact hrecounts.heed hwidth
      | false =>
          rw [if_neg (by decide), if_neg (by decide), Window.extension_self, List.append_nil,
            List.append_nil]
          exact hrecounts
  | fire =>
      obtain ⟨hclosed, hnext⟩ := hserves.fired hfits.2 first
      obtain rfl : t.now = due := Option.some.inj (hfits.1.symm.trans hdue)
      obtain ⟨k', hfired⟩ := hrecounts.fire hwidth hclosed
      refine ⟨_, k', hnext, ?_⟩
      show sch.window.Recounts first _ _ _ _ (late ++ []) k'
      rw [List.append_nil, ← Nat.add_assoc]
      exact hfired

/-- Beats that fit add to the record what they do. The induction is on the beats, whatever is on
record before them. -/
theorem Recorded.beatAll (h : Recorded sch first log late t)
    (hwidth : sch.window.start + jitter + 2 * minDelay ≤ sch.window.finish) {beats : List Beat}
    (hfits : t.Fits first beats) :
    Recorded sch first (log ++ t.postponements first beats) (late ++ t.stragglers first beats)
      (t.beatAll first beats) := by
  induction beats generalizing t log late with
  | nil =>
      show Recorded sch first (log ++ []) (late ++ []) t
      rw [List.append_nil, List.append_nil]
      exact h
  | cons b rest ih =>
      have hrest := ih (h.beat hwidth hfits.1) hfits.2
      rw [List.append_assoc, List.append_assoc] at hrest
      exact hrest

/-- In the usual mode, take a connection with an open window, a clamp that is not zero and a pending
deadline, which adopts the algorithm outside of a handover window of at least 12 ms. In any run in
which its timer fires exactly at the end of its sleep and the host writes neither window nor
deadline, the deadline is put off once between the start of a handover window and the next start:
less than a millisecond behind the start, by the length of the window. Only if an acknowledgment is
looked at exactly at the end of the window, when the timer has fired there, it is put off a second
time, at that moment and by the same amount, and not again however many such acknowledgments there
are. -/
theorem postponements_of_run {s : Session} (hcwnd : 1 ≤ s.connection.socket.cwnd)
    (hclamp : 1 ≤ s.connection.socket.clamp) (hmode : s.connection.schedule.timerOnly = false)
    (hwidth : s.connection.schedule.window.start + Nanos.millis 12 ≤
      s.connection.schedule.window.finish)
    (hout : s.connection.schedule.window.contains s.host.phase = false)
    (harmed : (s.adopt .connection).connection.timer.isSome = true)
    (hpending : s.connection.socket.rto.isSome = true) {beats : List Beat}
    (hfits : (adopted s).Fits s.host.phase beats) (k : Nat)
    (hfirst : s.host.phase < k * period + s.connection.schedule.window.start)
    (hover : (k + 1) * period + s.connection.schedule.window.start ≤
      s.host.phase + ((adopted s).beatAll s.host.phase beats).now) :
    let w := s.connection.schedule.window
    let start := k * period + w.start
    let finish := k * period + w.finish
    let seen := ((adopted s).postponements s.host.phase beats).filter fun p =>
      start ≤ p.moment ∧ p.moment < (k + 1) * period + w.start
    ∃ moment, start ≤ moment ∧ moment < start + Nanos.millis 1 ∧
      seen = ⟨moment, w.finish - w.start⟩ ::
        if finish ∈ (adopted s).stragglers s.host.phase beats then
          [⟨finish, w.finish - w.start⟩]
        else [] := by
  have hunit : Nanos.millis 12 = jitter + 2 * minDelay := by decide
  rw [hunit, ← Nat.add_assoc] at hwidth
  have hadopted := recorded_adopted hcwnd hclamp hmode hout harmed hpending
  obtain ⟨due, j, -, hrecounts⟩ := (hadopted.beatAll hwidth hfits).recounts
  exact hrecounts.told hfirst hover

/-- Time may pass up to the end of the timer's sleep. -/
theorem fits_wait {d : Nat} (due : Nat) (hdue : t.due = some due) (hle : t.now + d ≤ due) :
    (Beat.wait d).Fits t := fun due' hdue' => by
  obtain rfl := Option.some.inj (hdue'.symm.trans hdue)
  exact hle

/-- The connection of the example has a deadline and gets an acknowledgment at the end of the
handover window, right after its timer has fired: the deadline is put off twice, by 400 ms each. -/
theorem postponements_of_run_secondBefore :
    let s := Session.secondBefore {} { rto := some (some 3000000000) }
    let w := s.connection.schedule.window
    let beats : List Beat := [.wait 800000000, .fire, .wait 400000000, .fire, .ack 1,
      .wait 1000000, .fire, .wait 14599000000]
    ∃ moment, w.start ≤ moment ∧ moment < w.start + Nanos.millis 1 ∧
      ((adopted s).postponements s.host.phase beats).filter (fun p =>
          w.start ≤ p.moment ∧ p.moment < period + w.start) =
        [⟨moment, 400000000⟩, ⟨12200000000, 400000000⟩] := by
  intro s w beats
  have hfits : (adopted s).Fits s.host.phase beats :=
    ⟨fits_wait 800000000 (by decide) (by decide), ⟨by decide, by decide⟩,
      fits_wait 1200000000 (by decide) (by decide), ⟨by decide, by decide⟩, trivial,
      fits_wait 1201000000 (by decide) (by decide), ⟨by decide, by decide⟩,
      fits_wait 15800000000 (by decide) (by decide), trivial⟩
  obtain ⟨moment, hlow, hhigh, hseen⟩ := postponements_of_run (s := s) (by decide) (by decide)
    (by decide) (by decide) (by decide) (by decide) (by decide) hfits 0 (by decide) (by decide)
  have hedges : 0 * period + w.finish = 12200000000 ∧ w.finish - w.start = 400000000 := by decide
  rw [if_pos (by decide), hedges.1, hedges.2] at hseen
  simp only [Nat.zero_mul, Nat.zero_add, Nat.one_mul] at hlow hhigh hseen
  exact ⟨moment, hlow, hhigh, hseen⟩

/-- Two sessions in which the deadline is not put off once between two starts, seen from a
millisecond ahead of one to a millisecond ahead of the next. In the first, an acknowledgment comes
in exactly at the end of the handover window, and puts the deadline off a second time. In the second,
the clamp is zero, so that an acknowledgment before the handover closes the window, and the deadline
is never put off. -/
theorem postponed_twice_or_never_secondBefore :
    let wait (ms : Nat) : Operation := .run ms false false
    let s := (Session.secondBefore {} { rto := some (some 3000000000) }).performAll
      [.adopt .connection, wait 799]
    let edge := s.performAll [wait 1, wait 400]
    let late := edge.performAll [.ack 1 1 0, wait 14599]
    let z := (Session.secondBefore {} { rto := some (some 3000000000), clamp := some 0 }).performAll
      [.adopt .connection, .ack 1 1 0, wait 799]
    (s.connection.socket.rto = some 3000000000 ∧ edge.host.phase = 12200000000 ∧
        edge.connection.socket.rto = some 3400000000 ∧ late.host.phase = s.host.phase ∧
        late.connection.socket.rto = some 3800000000) ∧
      z.connection.socket.rto = some 3000000000 ∧
        (z.performAll [wait 15000]).connection.socket.rto = some 3000000000 := by
  decide +kernel

end Timed

end LowOrbit

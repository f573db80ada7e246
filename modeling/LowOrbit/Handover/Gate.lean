import LowOrbit.Handover.Window
import LowOrbit.Socket

/-!
# The transmission gate

A connection is suspended by closing its congestion window, and the gate remembers the window to
restore. Gate and socket belong together, and `Link` is the pair of them: an operation on the
gate writes the socket too, and what window is in force can only be told from both.
-/

namespace LowOrbit.Handover

/-- Whether transmission follows the congestion window or is frozen until a handover is over. -/
inductive Gate where
  | opened
  | suspended (saved : Nat)
  deriving DecidableEq, Repr

/-- Whether transmission is frozen. -/
def Gate.isSuspended : Gate → Bool
  | .opened => false
  | .suspended _ => true

/-- The window that the gate restores, zero if it holds none. -/
def Gate.saved : Gate → Nat
  | .opened => 0
  | .suspended saved => saved

/-- A socket together with its gate. -/
structure Link where
  gate : Gate := .opened
  socket : Socket
  deriving DecidableEq, Repr

/-- The smallest window outside of a handover. -/
def minCwnd : Nat := 1

namespace Link

/-- Whether the window of the socket is closed. -/
def isClosed (l : Link) : Bool := l.socket.isClosed

/-- The window in force: the saved one while the gate is suspended, else that of the socket. -/
def effectiveCwnd (l : Link) : Nat :=
  match l.gate with
  | .suspended saved => saved
  | .opened => l.socket.cwnd

/-- A window is closed when it is zero. -/
theorem isClosed_iff (l : Link) : l.isClosed = true ↔ l.socket.cwnd = 0 := by
  simp [isClosed, Socket.isClosed]

/-- Closes the window and saves it. A pending retransmission deadline is put off by `extend`, so
that the silence is not read as a timeout. A window that is closed already is left alone. -/
def suspend (l : Link) (extend : Nat) : Link :=
  if l.isClosed then l
  else
    { gate := .suspended l.socket.cwnd
      socket := { l.socket with cwnd := 0, rto := l.socket.rto.map (· + extend) } }

/-- Opens the gate. A closed window becomes the saved one, or `minCwnd` if that is larger, and
waiting writers are woken up. A window that is open already is left alone. -/
def resume (l : Link) : Link :=
  if l.isClosed then
    { gate := .opened
      socket := { l.socket with cwnd := max l.gate.saved minCwnd }.wakeWriters }
  else { l with gate := .opened }

/-- A window is closed after it has been suspended. -/
theorem isClosed_suspend (l : Link) (extend : Nat) : (l.suspend extend).isClosed = true := by
  by_cases h : l.isClosed = true
  · simp [suspend, h]
  · simp [suspend, h, isClosed_iff]

/-- Suspending an open gate does not change the window in force. -/
theorem effectiveCwnd_suspend {l : Link} (h : l.gate = .opened) (extend : Nat) :
    (l.suspend extend).effectiveCwnd = l.effectiveCwnd := by
  by_cases hc : l.isClosed = true
  · simp [suspend, hc]
  · simp [suspend, hc, effectiveCwnd, h]

/-- Waking writers leaves the window alone. -/
theorem cwnd_wakeWriters (s : Socket) : s.wakeWriters.cwnd = s.cwnd := by
  simp only [Socket.wakeWriters]
  split <;> rfl

/-- The gate is open after it has been resumed. -/
theorem gate_resume (l : Link) : l.resume.gate = .opened := by
  by_cases h : l.isClosed = true <;> simp [resume, h]

/-- A window is open after it has been resumed. -/
theorem cwnd_resume_pos (l : Link) : 0 < l.resume.socket.cwnd := by
  by_cases h : l.isClosed = true
  · simp only [resume, h, if_true, cwnd_wakeWriters, minCwnd]
    omega
  · have := mt (isClosed_iff l).mpr h
    simp only [resume, h]
    exact Nat.pos_of_ne_zero this

/-- A resumed link is not closed. -/
theorem isClosed_resume (l : Link) : l.resume.isClosed = false := by
  have := l.cwnd_resume_pos
  simp only [isClosed, Socket.isClosed, beq_eq_false_iff_ne]
  omega

/-- Raises the saved window to at least `cwnd` if the gate is suspended. -/
def raiseSaved (l : Link) (cwnd : Nat) : Link :=
  match l.gate with
  | .suspended saved => { l with gate := .suspended (max saved cwnd) }
  | .opened => l

/-- Does what is asked of the gate, for a handover window of length `span`. -/
def act (l : Link) (span : Nat) : Action → Link
  | .suspend => l.suspend span
  | .resume => l.resume
  | .keep => l

/-- One operation on a link. -/
inductive Command where
  | suspend (extend : Nat)
  | resume
  | raiseSaved (cwnd : Nat)
  /-- The host writes the socket. -/
  | edit (e : Socket.Edit)
  deriving DecidableEq, Repr

/-- Performs one operation. -/
def perform (l : Link) : Command → Link
  | .suspend extend => l.suspend extend
  | .resume => l.resume
  | .raiseSaved cwnd => l.raiseSaved cwnd
  | .edit e => { l with socket := l.socket.edit e }

/-- Whether an operation finds the link as it expects: an open window to close, a closed window to
open, a saved window to raise. The host's writes expect nothing. -/
def accepts (l : Link) : Command → Option Bool
  | .suspend _ => some (!l.isClosed)
  | .resume => some l.isClosed
  | .raiseSaved _ => some l.gate.isSuspended
  | .edit _ => none

end Link

end LowOrbit.Handover

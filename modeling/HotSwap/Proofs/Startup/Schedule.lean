import HotSwap.Proofs.Standing.Basic
import HotSwap.Server.Schedule

/-!
# What a schedule keeps

A schedule does nothing but let calls go on and let time pass, and whose turn it is does not show in
the standing. What every call that goes on keeps is kept by the schedule.
-/

namespace HotSwap.Server

variable {P : Standing → Prop}

@[simp] theorem standing_elapse (s : Server) (ms : Nat) : (s.elapse ms).standing = s.standing :=
  standing_wakeAll _ _

@[simp] theorem standing_sleepTill (s : Server) (deadline : Time) :
    (s.sleepTill deadline).standing = s.standing :=
  s.standing_elapse _

variable (kept : ∀ (s : Server) (c : CallId), P s.standing → P (s.proceed c).standing)
include kept

theorem letOn_keeps (n : Nat) (s : Server) (c : CallId) (held : P s.standing) :
    P (letOn n s c).standing := by
  induction n generalizing s with
  | zero => exact held
  | succ n inductionHypothesis =>
    unfold letOn
    split
    · exact held
    · exact inductionHypothesis _ (kept s c held)

theorem takeTurn_keeps (s : Server) (c : CallId) (held : P s.standing) :
    P (s.takeTurn c).standing :=
  letOn_keeps kept _ _ c held

theorem settleFor_keeps (n : Nat) (s : Server) (apart : Option CallId) (held : P s.standing) :
    P (settleFor n s apart).standing := by
  induction n generalizing s with
  | zero => exact held
  | succ n inductionHypothesis =>
    unfold settleFor
    split
    · exact inductionHypothesis _ (takeTurn_keeps kept s _ held)
    · exact held

theorem prefer_keeps (s : Server) (apart : Option CallId) (held : P s.standing) :
    P (s.prefer apart).standing := by
  unfold prefer
  split
  · split
    · exact takeTurn_keeps kept s _ held
    · exact held
  · exact held

theorem awaitFor_keeps (n : Nat) (s : Server) (apart : Option CallId) (c : CallId) (deadline : Time)
    (held : P s.standing) : P (awaitFor n s apart c deadline).standing := by
  induction n generalizing s with
  | zero => exact held
  | succ n inductionHypothesis =>
    have preferred := prefer_keeps kept s apart held
    have settled := settleFor_keeps kept (s.prefer apart).settleLimit _ apart preferred
    simp only [awaitFor]
    split
    · exact preferred
    · split
      · exact inductionHypothesis _ settled
      · apply inductionHypothesis
        rw [standing_sleepTill]
        exact settled

theorem await_keeps (s : Server) (c : CallId) (held : P s.standing) : P (s.await c).standing :=
  awaitFor_keeps kept _ s _ c _ held

end HotSwap.Server

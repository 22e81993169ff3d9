import Mathlib.Data.List.Forall2

/-!
# Machines that answer

A machine takes calls one after another, answers each, and goes on in another state. The transcript of several calls holds
their answers and the last state. What one call keeps is kept by all (`stateAt_induction`), and calls that are answered alike
one by one are answered alike one after another (`transcript_congr`).
-/

namespace DnsRelay

variable {σ κ α : Type}

/-- The answers of a machine to several calls, and the state that they leave. -/
def transcript (answer : σ → κ → α × σ) (s : σ) : List κ → List α × σ
  | [] => ([], s)
  | call :: calls =>
    let (a, s) := answer s call
    let (as, s) := transcript answer s calls
    (a :: as, s)

/-- The state of a machine after the first `k` of several calls. -/
def stateAt (answer : σ → κ → α × σ) (s : σ) (calls : List κ) (k : Nat) : σ :=
  (transcript answer s (calls.take k)).2

variable {answer : σ → κ → α × σ} {s : σ} {calls : List κ}

theorem transcript_cons (answer : σ → κ → α × σ) (s : σ) (call : κ) (calls : List κ) :
    transcript answer s (call :: calls) =
      ((answer s call).1 :: (transcript answer (answer s call).2 calls).1, (transcript answer (answer s call).2 calls).2) :=
  rfl

/-- The first answers are those to the first calls. -/
theorem transcript_take (answer : σ → κ → α × σ) (s : σ) (calls : List κ) (k : Nat) :
    (transcript answer s (calls.take k)).1 = (transcript answer s calls).1.take k := by
  induction calls generalizing s k with
  | nil => rw [List.take_nil, transcript, List.take_nil]
  | cons call calls ih =>
    cases k with
    | zero => rfl
    | succ k => rw [List.take_succ_cons, transcript_cons, transcript_cons, List.take_succ_cons, ih]

/-- Before the first call a machine is in its first state. -/
@[simp] theorem stateAt_zero (answer : σ → κ → α × σ) (s : σ) (calls : List κ) : stateAt answer s calls 0 = s := by
  rw [stateAt, List.take_zero, transcript]

/-- Behind the first call the rest of the calls goes on from the state that it left. -/
@[simp] theorem stateAt_cons_succ (answer : σ → κ → α × σ) (s : σ) (call : κ) (calls : List κ) (k : Nat) :
    stateAt answer s (call :: calls) (k + 1) = stateAt answer (answer s call).2 calls k := by
  rw [stateAt, List.take_succ_cons, transcript_cons, stateAt]

/-- The next call is answered in the state that those before it left. -/
theorem getElem?_transcript (answer : σ → κ → α × σ) (s : σ) (calls : List κ) (k : Nat) :
    (transcript answer s calls).1[k]? = calls[k]?.map fun call => (answer (stateAt answer s calls k) call).1 := by
  induction calls generalizing s k with
  | nil => rfl
  | cons call calls ih =>
    cases k with
    | zero => simp [transcript_cons]
    | succ k => simp [transcript_cons, ih]

/-- The next call leads from the state that those before it left to the one that it leaves. -/
theorem stateAt_succ {k : Nat} {call : κ} (hk : calls[k]? = some call) :
    stateAt answer s calls (k + 1) = (answer (stateAt answer s calls k) call).2 := by
  induction calls generalizing s k with
  | nil => cases hk
  | cons first calls ih =>
    cases k with
    | zero =>
      cases hk
      simp
    | succ k =>
      rw [stateAt_cons_succ, stateAt_cons_succ]
      exact ih hk

/-- Behind the last call the state stays. -/
theorem stateAt_succ_of_none {k : Nat} (hk : calls[k]? = none) :
    stateAt answer s calls (k + 1) = stateAt answer s calls k := by
  have hle := List.getElem?_eq_none_iff.1 hk
  rw [stateAt, stateAt, List.take_of_length_le hle, List.take_of_length_le (Nat.le_succ_of_le hle)]

/-- A property of states that every call keeps is kept by several calls. -/
theorem stateAt_induction {P : σ → Prop} (hstep : ∀ s call, P s → P (answer s call).2) {j k : Nat} (hjk : j ≤ k)
    (hj : P (stateAt answer s calls j)) : P (stateAt answer s calls k) := by
  induction hjk with
  | refl => exact hj
  | @step k _ ih =>
    cases hk : calls[k]? with
    | none =>
      rw [stateAt_succ_of_none hk]
      exact ih
    | some call =>
      rw [stateAt_succ hk]
      exact hstep _ call ih

section Congruence

variable {R : κ → κ → Prop} (hanswer : ∀ s call call', R call call' → answer s call' = answer s call) {calls' : List κ}
  (hcalls : List.Forall₂ R calls calls')
include hanswer hcalls

/-- Calls that are answered in the same way, whatever the state, have one transcript. -/
theorem transcript_congr (s : σ) : transcript answer s calls' = transcript answer s calls := by
  induction hcalls generalizing s with
  | nil => rfl
  | cons hcall _ ih => rw [transcript_cons, transcript_cons, hanswer s _ _ hcall, ih]

/-- They lead through the same states. -/
theorem stateAt_congr (s : σ) (k : Nat) : stateAt answer s calls' k = stateAt answer s calls k := by
  rw [stateAt, stateAt, transcript_congr hanswer (List.forall₂_take k hcalls)]

end Congruence

end DnsRelay

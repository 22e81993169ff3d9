import Mathlib.Logic.Function.Basic
import DnsRelay.Forward.Basic
import DnsRelay.Proofs.Pending.History

/-!
# A table that several tasks share

Taking in a message is two operations on the table of pending queries: the query that the message claims to answer is looked
up, and if the message is accepted for it, the token that was found is cleared. Between the two, other tasks may do what they
like with the table. The main result, `interleaved_safe`, is about every order in which the steps of any number of such calls
and all other operations come. `receive_eq_two_steps` says that a forwarder takes in a message by these two steps.
-/

namespace DnsRelay

/-- One step of a task on a table that it shares with others: an operation that is one step, or the first or the second step of
taking in a message. The calls that take in messages are told apart by their numbers. -/
inductive TableStep (P : Type) where
  | direct (call : TableCall P)
  | lookup (n : Nat) (octets : Octets) (source : Endpoint)
  | clear (n : Nat)

/-- The number of the call that a step is part of. -/
def TableStep.number? {P : Type} : TableStep P → Option Nat
  | .direct _ => none
  | .lookup n _ _ => some n
  | .clear n => some n

/-- The token that taking in a message clears: that of the query which it claims to answer, if it is accepted for it. -/
def PendingTable.accepted? {P : Type} (v : Validator) (t : PendingTable P) (octets : Octets) (source : Endpoint) :
    Option Token :=
  match Response.parse? octets source with
  | .error _ => none
  | .ok response =>
    match t.lookup response.id source with
    | none => none
    | some (token, query) =>
      match v.validate response query with
      | .error _ => none
      | .ok () => some token

/-- A table, and for each call that has made its first step and not its second one the token that it holds. -/
structure SharedTable (P : Type) where
  table : PendingTable P
  held : Nat → Option Token

namespace SharedTable

variable {P : Type}

/-- An empty table, and no calls. -/
def empty (capacity : Nat) : SharedTable P :=
  ⟨.empty capacity, fun _ => none⟩

/-- What a step asks of the table, if anything. -/
def call? (s : SharedTable P) : TableStep P → Option (TableCall P)
  | .direct call => some call
  | .lookup _ octets source => (Response.parse? octets source).toOption.map fun response => .lookup response.id source
  | .clear n => (s.held n).map .clear

/-- The tokens that the calls hold after a step. -/
def heldAfter (v : Validator) (s : SharedTable P) : TableStep P → Nat → Option Token
  | .direct _ => s.held
  | .lookup n octets source => Function.update s.held n (s.table.accepted? v octets source)
  | .clear n => Function.update s.held n none

/-- A task makes a step: what the table answers, if it is asked, and what is left. -/
def step (v : Validator) (s : SharedTable P) (a : TableStep P) : Option (TableAnswer P) × SharedTable P :=
  match s.call? a with
  | none => (none, ⟨s.table, s.heldAfter v a⟩)
  | some call => (some (s.table.answer call).1, ⟨(s.table.answer call).2, s.heldAfter v a⟩)

/-- The step at moment `i` registers a query: it asks for that, and is answered with the token. -/
def Registers (v : Validator) (s : SharedTable P) (steps : List (TableStep P)) (i : Nat) (r : Registration P) : Prop :=
  ∃ query, steps[i]? = some (.direct (.register query r.payload)) ∧ r.query = query.kept ∧
    (transcript (step v) s steps).1[i]? = some (some (.registered r.token))

/-- The first step of taking in a message finds a registration, and the message is accepted for it. -/
def Accepts (v : Validator) (s : SharedTable P) (octets : Octets) (source : Endpoint) (r : Registration P) : Prop :=
  ∃ response, Response.parse? octets source = .ok response ∧
    s.table.lookup response.id source = some (r.token, r.query) ∧ v.validate response r.query = .ok ()

end SharedTable

open SharedTable
open PendingTable (History)

/-- A token is held iff a query was looked up for which the message is accepted. -/
theorem PendingTable.accepted?_eq_some_iff {P : Type} (v : Validator) (t : PendingTable P) (octets : Octets)
    (source : Endpoint) (token : Token) :
    t.accepted? v octets source = some token ↔ ∃ response query, Response.parse? octets source = .ok response ∧
      t.lookup response.id source = some (token, query) ∧ v.validate response query = .ok () := by
  unfold accepted?
  cases hp : Response.parse? octets source with
  | error e => simp
  | ok response =>
    cases hl : t.lookup response.id source with
    | none => simp [hl]
    | some found =>
      obtain ⟨token', query⟩ := found
      cases hv : v.validate response query with
      | error e => simp [hl, hv]
      | ok _ => simp [hl, hv]

/-- A forwarder takes in a message by the two steps, with nothing between them: they leave its table, and they hand out an entry
iff the message is delivered. -/
theorem Forwarder.receive_eq_two_steps (f : Forwarder) (octets : Octets) (source : Endpoint) (held : Nat → Option Token)
    (n : Nat) :
    let first := (SharedTable.mk f.table held).step f.validator (.lookup n octets source)
    let second := first.2.step f.validator (.clear n)
    (f.receive octets source).2.table = second.2.table ∧
      ((f.receive octets source).1 = .delivered ↔ ∃ gone, second.1 = some (.cleared (some gone))) := by
  intro first second
  have hheld : first.2 = ⟨f.table, Function.update held n (f.table.accepted? f.validator octets source)⟩ := by
    simp only [first, step, call?, heldAfter]
    cases Response.parse? octets source with
    | error e => rfl
    | ok response => rfl
  have hsecond : second = (SharedTable.mk f.table
      (Function.update held n (f.table.accepted? f.validator octets source))).step f.validator (.clear n) := by
    rw [← hheld]
  rw [hsecond]
  unfold receive PendingTable.accepted?
  cases hp : Response.parse? octets source with
  | error e => simp [step, call?]
  | ok response =>
    cases hl : f.table.lookup response.id source with
    | none => simp [step, call?, hl]
    | some found =>
      obtain ⟨token, query⟩ := found
      cases hv : f.validator.validate response query with
      | error reason => simp [step, call?, hl, hv]
      | ok _ =>
        cases hc : f.table.clear token with
        | none => simp [step, call?, hl, hv, hc, PendingTable.answer]
        | some gone => simp [step, call?, hl, hv, hc, PendingTable.answer, post]

namespace SharedTable

variable {P : Type} {v : Validator} {s : SharedTable P} {steps : List (TableStep P)}

/-! ## One step -/

/-- What a step does: it adds one registration, and is answered with its token; or it ends some, and hands these out. -/
theorem step_cases (v : Validator) (h : s.table.Represents s.table.live) (a : TableStep P) :
    (∃ query payload token, a = .direct (.register query payload) ∧ (s.step v a).1 = some (.registered token) ∧
      s.table.Adds ⟨token, query.kept, payload⟩ (s.step v a).2.table) ∨
    ((∀ token, (s.step v a).1 ≠ some (.registered token)) ∧
      ∃ gone, ((s.step v a).1.map (·.handedOut)).getD [] = gone.map (·.contents) ∧
        s.table.Ends gone (s.step v a).2.table) := by
  unfold step
  cases hc : s.call? a with
  | none => exact Or.inr ⟨nofun, [], rfl, h.ends_nil⟩
  | some call =>
    rcases h.answer_cases call with ⟨query, payload, token, rfl, he, hadds⟩ | ⟨hne, gone, hgone, hends⟩
    · have ha : a = .direct (.register query payload) := by
        cases a with
        | direct call =>
          cases hc
          rfl
        | lookup n octets source =>
          obtain ⟨response, -, hr⟩ := Option.map_eq_some_iff.1 hc
          cases hr
        | clear n =>
          obtain ⟨token, -, ht⟩ := Option.map_eq_some_iff.1 hc
          cases ht
      exact Or.inl ⟨query, payload, token, ha, congrArg some he, hadds⟩
    · exact Or.inr ⟨fun token he => hne token (Option.some.inj he), gone, hgone, hends⟩

/-- The token that a call holds changes only at a step of this call. -/
theorem step_held (v : Validator) (s : SharedTable P) {a : TableStep P} {n : Nat} (ha : a.number? ≠ some n) :
    (s.step v a).2.held n = s.held n := by
  have hafter : (s.step v a).2.held = s.heldAfter v a := by
    unfold step
    split <;> rfl
  rw [hafter]
  cases a with
  | direct call => rfl
  | lookup m octets source => exact Function.update_of_ne (fun he => ha (congrArg some he.symm)) _ _
  | clear m => exact Function.update_of_ne (fun he => ha (congrArg some he.symm)) _ _

/-! ## Many steps -/

/-- The steps make a history of the table. -/
theorem history (v : Validator) (h : s.table.Represents s.table.live) (steps : List (TableStep P)) :
    History fun k => (stateAt (step v) s steps k).table := by
  refine History.of_stateAt SharedTable.table (fun s a hs => ?_) h steps
  rcases step_cases v hs a with ⟨query, payload, token, -, -, hadds⟩ | ⟨-, gone, -, hends⟩
  · exact Or.inl ⟨_, hadds⟩
  · exact Or.inr ⟨gone, hends⟩

/-- A step registers a query iff it adds this registration. -/
theorem registers_iff_adds (h : s.table.Represents s.table.live) (steps : List (TableStep P)) (i : Nat)
    (r : Registration P) :
    s.Registers v steps i r ↔
      (stateAt (step v) s steps i).table.Adds r (stateAt (step v) s steps (i + 1)).table := by
  have hi := (history v h steps).represents_at i
  unfold Registers
  rw [getElem?_transcript]
  cases ha : steps[i]? with
  | none =>
    rw [stateAt_succ_of_none ha]
    exact ⟨nofun, fun hadds => absurd hadds.mem (hadds.not_mem hi)⟩
  | some a =>
    rw [stateAt_succ ha, Option.map_some]
    rcases step_cases v hi a with ⟨query, payload, token, rfl, he, hadds⟩ | ⟨hne, gone, -, hends⟩
    · rw [he]
      constructor
      · rintro ⟨query', hq, hkept, ht⟩
        obtain ⟨token', kept, payload'⟩ := r
        cases hq
        cases ht
        cases hkept
        exact hadds
      · intro hr
        have hlive := hr.live
        rw [hadds.live, List.append_cancel_left_eq, List.singleton_inj] at hlive
        rw [← hlive]
        exact ⟨query, rfl, rfl, rfl⟩
    · constructor
      · rintro ⟨query, -, -, ht⟩
        exact absurd (Option.some.inj ht) (hne r.token)
      · intro hadds
        exact absurd (hends.kept r hadds.mem) (hadds.not_mem hi)

/-- A step hands out what ends with it. -/
theorem handed_out (v : Validator) (h : s.table.Represents s.table.live) (steps : List (TableStep P)) (k : Nat) :
    ∃ gone : List (Registration P),
      (∀ answer, (transcript (step v) s steps).1[k]? = some answer →
        (answer.map (·.handedOut)).getD [] = gone.map (·.contents)) ∧
      gone.Nodup ∧ ∀ r, r ∈ gone ↔
        r ∈ (stateAt (step v) s steps k).table.live ∧ r ∉ (stateAt (step v) s steps (k + 1)).table.live := by
  rw [getElem?_transcript]
  cases ha : steps[k]? with
  | none =>
    rw [stateAt_succ_of_none ha]
    exact ⟨[], nofun, List.nodup_nil, by simp⟩
  | some a =>
    rw [stateAt_succ ha, Option.map_some]
    rcases step_cases v ((history v h steps).represents_at k) a with
      ⟨query, payload, token, -, he, hadds⟩ | ⟨-, gone, hgone, hends⟩
    · refine ⟨[], ?_, List.nodup_nil, fun r => ⟨nofun, fun hr => ?_⟩⟩
      · rintro answer ⟨rfl⟩
        rw [he]
        rfl
      · rw [hadds.live] at hr
        exact absurd (List.mem_append_left _ hr.1) hr.2
    · refine ⟨gone, ?_, hends.nodup, hends.mem_iff⟩
      rintro answer ⟨rfl⟩
      exact hgone

/-- Between its two steps a call holds the token that the first one found. -/
theorem held_between {i j n : Nat} {octets : Octets} {source : Endpoint} (hij : i < j)
    (hi : steps[i]? = some (.lookup n octets source))
    (hbetween : ∀ k a, i < k → k < j → steps[k]? = some a → a.number? ≠ some n) :
    (stateAt (step v) s steps j).held n = (stateAt (step v) s steps i).table.accepted? v octets source := by
  induction hij with
  | refl =>
    rw [stateAt_succ hi]
    unfold step
    split <;> exact Function.update_self ..
  | @step j hij ih =>
    have hbefore := ih fun k a hik hkj => hbetween k a hik (Nat.lt_succ_of_lt hkj)
    cases ha : steps[j]? with
    | none => rw [stateAt_succ_of_none ha, hbefore]
    | some a => rw [stateAt_succ ha, step_held v _ (hbetween j a hij (Nat.lt_succ_self j) ha), hbefore]

/-- The first step of a call found a registration, and its message is accepted for it: then the second step takes out this
registration if it is still there, and nothing otherwise. -/
theorem clear_after_lookup (h : s.table.Represents s.table.live) {i j n : Nat} {octets : Octets} {source : Endpoint}
    (hij : i < j) (hi : steps[i]? = some (.lookup n octets source)) (hj : steps[j]? = some (.clear n))
    (hbetween : ∀ k a, i < k → k < j → steps[k]? = some a → a.number? ≠ some n) {r : Registration P}
    (hr : r ∈ (stateAt (step v) s steps i).table.live) (haccepts : (stateAt (step v) s steps i).Accepts v octets source r) :
    (r ∈ (stateAt (step v) s steps j).table.live ∧
      (transcript (step v) s steps).1[j]? = some (some (.cleared (some r.contents))) ∧
      (stateAt (step v) s steps j).table.Ends [r] (stateAt (step v) s steps (j + 1)).table) ∨
    (r ∉ (stateAt (step v) s steps j).table.live ∧
      (transcript (step v) s steps).1[j]? = some (some (.cleared none)) ∧
      (stateAt (step v) s steps (j + 1)).table = (stateAt (step v) s steps j).table) := by
  obtain ⟨response, hp, hl, hv⟩ := haccepts
  have hheld := held_between (s := s) (v := v) hij hi hbetween
  rw [(PendingTable.accepted?_eq_some_iff ..).2 ⟨response, r.query, hp, hl, hv⟩] at hheld
  have hcall : (stateAt (step v) s steps j).call? (.clear n) = some (.clear r.token) := by rw [call?, hheld, Option.map_some]
  rw [getElem?_transcript, hj, Option.map_some, stateAt_succ hj, step, hcall]
  dsimp only
  have hhistory := history v h steps
  rcases (hhistory.step (Nat.le_of_lt hij)).clear_cases (hhistory.represents_at i) hr with ⟨hm, he, hends⟩ | ⟨hm, he⟩
  · exact Or.inl ⟨hm, by rw [he], hends⟩
  · exact Or.inr ⟨hm, by rw [he], by rw [he]⟩

/-- The first step of a call found no registration for which its message is accepted: then the second step does nothing. -/
theorem no_clear_after_lookup (h : s.table.Represents s.table.live) {i j n : Nat} {octets : Octets} {source : Endpoint}
    (hij : i < j) (hi : steps[i]? = some (.lookup n octets source)) (hj : steps[j]? = some (.clear n))
    (hbetween : ∀ k a, i < k → k < j → steps[k]? = some a → a.number? ≠ some n)
    (hnone : ∀ r ∈ (stateAt (step v) s steps i).table.live, ¬(stateAt (step v) s steps i).Accepts v octets source r) :
    (transcript (step v) s steps).1[j]? = some none ∧
      (stateAt (step v) s steps (j + 1)).table = (stateAt (step v) s steps j).table := by
  have hheld := held_between (s := s) (v := v) hij hi hbetween
  have haccepted : (stateAt (step v) s steps i).table.accepted? v octets source = none := by
    rw [Option.eq_none_iff_forall_ne_some]
    intro token ht
    obtain ⟨response, query, hp, hl, hv⟩ := (PendingTable.accepted?_eq_some_iff ..).1 ht
    have hfound := hl
    rw [((history v h steps).represents_at i).lookup_eq] at hfound
    obtain ⟨r, hr, he⟩ := Option.map_eq_some_iff.1 hfound
    cases he
    have hm : r ∈ (stateAt (step v) s steps i).table.live := by
      rcases Option.or_eq_some_iff.1 hr with hr | ⟨-, hr⟩
      · exact List.mem_of_find?_eq_some hr
      · exact List.mem_of_find?_eq_some hr
    exact hnone r hm ⟨response, hp, hl, hv⟩
  rw [haccepted] at hheld
  have hcall : (stateAt (step v) s steps j).call? (.clear n) = none := by rw [call?, hheld, Option.map_none]
  rw [getElem?_transcript, hj, Option.map_some, stateAt_succ hj, step, hcall]
  exact ⟨rfl, rfl⟩

/-- A table can be shared, however the steps of calls are interleaved.
1. A registration is pending from its beginning to its end, and never again.
2. The step with which it ends hands it out, once.
3. The second step of a call takes out the registration that the first one found and accepted, as long as that is pending, and
otherwise changes nothing.
4. Where the first step found none, the second does nothing. -/
theorem interleaved_safe (v : Validator) (capacity : Nat) (steps : List (TableStep P)) :
    let state := stateAt (step v) (empty capacity) steps
    let live (k : Nat) := (state k).table.live
    let answers : List (Option (TableAnswer P)) := (transcript (step v) (empty capacity) steps).1
    ((∀ k, ∀ r ∈ live k, ∃ i, (empty capacity).Registers v steps i r) ∧
      ∀ i r, (empty capacity).Registers v steps i r → r ∈ live (i + 1) ∧
        ∀ k, r ∈ live k → i < k ∧ ∀ j, i < j → j ≤ k → r ∈ live j) ∧
    (∃ gone : Nat → List (Registration P),
      (∀ (k : Nat) answer, answers[k]? = some answer → (answer.map (·.handedOut)).getD [] = (gone k).map (·.contents)) ∧
      (∀ k, (gone k).Nodup ∧ ∀ r, r ∈ gone k ↔ r ∈ live k ∧ r ∉ live (k + 1)) ∧
      ∀ j k r, r ∈ gone j → r ∈ gone k → j = k) ∧
    (∀ (i j : Nat) n octets source, i < j → steps[i]? = some (.lookup n octets source) → steps[j]? = some (.clear n) →
      (∀ (k : Nat) a, i < k → k < j → steps[k]? = some a → a.number? ≠ some n) →
      (∀ r ∈ live i, (state i).Accepts v octets source r →
        (r ∈ live j ∧ answers[j]? = some (some (.cleared (some (r.query, r.payload)))) ∧
          ∀ x, x ∈ live (j + 1) ↔ x ∈ live j ∧ x ≠ r) ∨
        (r ∉ live j ∧ answers[j]? = some (some (.cleared none)) ∧ (state (j + 1)).table = (state j).table)) ∧
      ((∀ r ∈ live i, ¬(state i).Accepts v octets source r) →
        answers[j]? = some none ∧ (state (j + 1)).table = (state j).table)) := by
  intro state live answers
  have hempty : (empty capacity : SharedTable P).table.live = [] := (PendingTable.represents_empty capacity).live_eq
  have h : (empty capacity : SharedTable P).table.Represents (empty capacity : SharedTable P).table.live := by
    rw [hempty]
    exact PendingTable.represents_empty capacity
  have hhistory : History fun k => (state k).table := history v h steps
  refine ⟨⟨?_, ?_⟩, ?_, ?_⟩
  · intro k r hr
    rcases hhistory.mem_or_added hr with hinit | ⟨i, -, hadds⟩
    · have hnone : r ∈ (empty capacity : SharedTable P).table.live := hinit
      rw [hempty] at hnone
      cases hnone
    · exact ⟨i, (registers_iff_adds h steps i r).2 hadds⟩
  · intro i r hregisters
    have hadds := (registers_iff_adds h steps i r).1 hregisters
    refine ⟨hadds.mem, fun k hk => ⟨hhistory.lt_of_added hadds hk, fun j hij hjk => ?_⟩⟩
    exact hhistory.mem_between hij hjk hadds.mem hk
  · have hgone := handed_out v h steps
    choose gone hgone using hgone
    refine ⟨gone, fun k => (hgone k).1, fun k => (hgone k).2, fun j k r hj hk => ?_⟩
    rw [(hgone j).2.2] at hj
    rw [(hgone k).2.2] at hk
    exact hhistory.ended_once hj.1 hj.2 hk.1 hk.2
  · intro i j n octets source hij hi hj hbetween
    refine ⟨fun r hr haccepts => ?_, no_clear_after_lookup h hij hi hj hbetween⟩
    rcases clear_after_lookup h hij hi hj hbetween hr haccepts with ⟨hm, hanswer, hends⟩ | hrest
    · refine Or.inl ⟨hm, hanswer, fun x => ?_⟩
      have hx := hends.mem_iff x
      have hkept := hends.kept x
      rw [List.mem_singleton] at hx
      show x ∈ (state (j + 1)).table.live ↔ x ∈ (state j).table.live ∧ x ≠ r
      tauto
    · exact Or.inr hrest

/-- Between the two steps of a call the query that it found is given up, and one with the same key gets the same slot: the second
step leaves the newcomer alone. -/
example :
    let octets : Octets := #[0, 7, 128, 0, 0, 1, 0, 0, 0, 0, 0, 0, 1, 97, 0, 0, 1, 0, 1]
    let query : PendingQuery :=
      ⟨7, ⟨⟨[1, 97, 0]⟩, RRType.a, RRClass.internet⟩, .v4 0 0, .v4 1 53, 0, .relay⟩
    let steps : List (TableStep Nat) := [.direct (.register query 1), .lookup 0 octets (.v4 1 53), .direct (.clear ⟨0, 0⟩),
      .direct (.register query 2), .clear 0, .direct (.clear ⟨0, 1⟩)]
    (transcript (step ⟨64, none⟩) (empty 1) steps).1 = [some (.registered ⟨0, 0⟩), some (.found (some (⟨0, 0⟩, query))),
      some (.cleared (some (query, 1))), some (.registered ⟨0, 1⟩), some (.cleared none), some (.cleared (some (query, 2)))] := by
  cbv

end SharedTable

end DnsRelay

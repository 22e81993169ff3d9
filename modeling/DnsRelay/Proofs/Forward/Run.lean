import DnsRelay.Forward.Exchange
import DnsRelay.Proofs.Forward.Coherent

/-!
# Runs of a forwarder

A run is a list of actions in any order: sending, receiving from anywhere, failing connections, sweeps, handles given up and
handles waited for. `Step` says what one action can do to the pending queries and the mailboxes, whichever action it is; what
holds of a whole run follows from it by induction over the actions.
-/

namespace DnsRelay

namespace Forwarder

/-- What can be done with a forwarder. -/
inductive Action where
  | send (now : Nat) (draws : Draws) (failure : Option LinkFailure) (out : Outbound) (resolver : Resolver)
  | meet (event : Event)
  | cancel (handle : Handle)
  | wait (handle : Handle)

/-- The octets that an action takes in, and the source that they are told to come from. -/
def Action.arrival? : Action → Option (Octets × Endpoint)
  | .meet (.datagram octets source) => some (octets, source)
  | .meet (.connectionReply handle octets) => some (octets, handle.server)
  | _ => none

/-- The forwarder after an action. -/
def act (f : Forwarder) : Action → Forwarder
  | .send now draws failure out resolver => (f.send now draws failure out resolver).2
  | .meet event => f.meet event
  | .cancel handle => f.cancel handle
  | .wait handle => (f.wait handle).2

/-- The forwarder after several actions. -/
def run (f : Forwarder) (actions : List Action) : Forwarder :=
  actions.foldl act f

/-- The forwarder after the first `k` of several actions. -/
def after (f : Forwarder) (actions : List Action) (k : Nat) : Forwarder :=
  f.run (actions.take k)

/-- The forwarder is in a state that some run from the start leads to. -/
def Reachable (f : Forwarder) : Prop :=
  ∃ config validator actions, (start config validator).run actions = f

/-- The octets from the source are a response that answers the registration and passes the checks. -/
def Accepts (f : Forwarder) (octets : Octets) (source : Endpoint) (r : Registration Nat) : Prop :=
  ∃ response, Response.parse? octets source = .ok response ∧ r.key = (response.id, source.canonical) ∧
    f.validator.Passes response r.query

/-- What any action does. Registrations that were not there before have a new serial number and a new mailbox. The mailbox
of a query that stays pending, and one that no longer waits, keep what is in them. A query that ends with octets in its
mailbox was ended by an action that took them in, they were accepted for it, and no other query ended. -/
structure Step (f : Forwarder) (a : Action) (f' : Forwarder) : Prop where
  coherent : f'.Coherent
  config : f'.config = f.config
  validator : f'.validator = f.validator
  nextSerial : f.table.nextSerial ≤ f'.table.nextSerial
  size : f.mailboxes.size ≤ f'.mailboxes.size
  fresh : ∀ r ∈ f'.live, r ∈ f.live ∨ f.table.nextSerial ≤ r.token.serial ∧ f.mailboxes.size ≤ r.payload
  kept : ∀ m < f.mailboxes.size, (∀ r ∈ f.live, r.payload = m → r ∈ f'.live) → f'.mailboxes[m]? = f.mailboxes[m]?
  ended : ∀ r ∈ f.live, r ∉ f'.live → ∀ octets, f'.mailboxes[r.payload]? = some (.delivered octets) →
    ∃ source, a.arrival? = some (octets, source) ∧ f.Accepts octets source r ∧
      f'.live = f.live.filter fun x => !x.named r.token

/-! ## One action -/

section Steps

variable {f f' : Forwarder}

/-- Changing counters is a step. -/
theorem Coherent.step_of_unchanged (h : f.Coherent) (a : Action) (stats : Stats) : f.Step a { f with stats } where
  coherent := h.withStats stats
  config := rfl
  validator := rfl
  nextSerial := Nat.le_refl _
  size := Nat.le_refl _
  fresh := fun _ hr => Or.inl hr
  kept := fun _ _ _ => rfl
  ended := fun _ hr hn => absurd hr hn

/-- Adding a query is a step. -/
theorem Adds.step {r : Registration Nat} (e : f.Adds r f') (a : Action) : f.Step a f' where
  coherent := e.coherent
  config := e.config
  validator := e.validator
  nextSerial := by
    rw [e.nextSerial]
    exact Nat.le_succ _
  size := by
    rw [e.mailboxes, Array.size_push]
    exact Nat.le_succ _
  fresh := by
    intro x hx
    rw [e.live, List.mem_append, List.mem_singleton] at hx
    rcases hx with hx | rfl
    · exact Or.inl hx
    · exact Or.inr ⟨Nat.le_of_eq e.serial.symm, Nat.le_of_eq e.payload.symm⟩
  kept := by
    intro m hm _
    rw [e.mailboxes, Array.getElem?_push, if_neg (Nat.ne_of_lt hm)]
  ended := by
    intro x hx hn
    rw [e.live] at hn
    exact absurd (List.mem_append_left _ hx) hn

/-- Ending queries is a step, if the contents that go into the mailboxes are no octets, or octets that were accepted. -/
theorem Ends.step {gone : Registration Nat → Bool} {contents : Mailbox} (e : f.Ends gone contents f') (a : Action)
    (hd : ∀ octets, contents = .delivered octets → ∀ r ∈ f.live, gone r = true →
      ∃ source, a.arrival? = some (octets, source) ∧ f.Accepts octets source r ∧
        f'.live = f.live.filter fun x => !x.named r.token) : f.Step a f' where
  coherent := e.coherent
  config := e.config
  validator := e.validator
  nextSerial := Nat.le_of_eq e.nextSerial.symm
  size := Nat.le_of_eq e.size.symm
  fresh := by
    intro r hr
    rw [e.live] at hr
    exact Or.inl (List.mem_filter.1 hr).1
  kept := by
    intro m _ hm
    refine e.kept m fun r hr hg he => ?_
    have hr' := hm r hr he
    rw [e.live] at hr'
    simp [hg] at hr'
  ended := by
    intro r hr hn octets ho
    have hg : gone r = true := by
      cases hg : gone r with
      | true => rfl
      | false =>
        rw [e.live] at hn
        exact absurd (List.mem_filter.2 ⟨hr, by rw [hg]; rfl⟩) hn
    rw [e.ended r hr hg] at ho
    cases ho
    exact hd octets rfl r hr hg

/-- Adding a query and ending it at once is a step. -/
theorem Adds.step_ends {r : Registration Nat} {f₁ : Forwarder} (h : f.Coherent) (e : f.Adds r f₁)
    (e' : f₁.countUnreachable.Ends (·.named r.token) .closed f') (a : Action) : f.Step a f' := by
  have hlive : f₁.countUnreachable.live = f.live ++ [r] := e.live
  have hnamed : ∀ x ∈ f.live, x.named r.token = false := by
    intro x hx
    have hlt := h.table.fresh x hx
    rw [← e.serial] at hlt
    have hne : x.token ≠ r.token := fun he => Nat.lt_irrefl _ (by rw [he] at hlt; exact hlt)
    simpa [Registration.named] using hne
  have hlive' : f'.live = f.live := by
    rw [e'.live, hlive, List.filter_append, List.filter_eq_self.2 (by simpa using hnamed)]
    simp [Registration.named]
  constructor
  · exact e'.coherent
  · exact e'.config.trans e.config
  · exact e'.validator.trans e.validator
  · have hn : f₁.countUnreachable.table.nextSerial = f.table.nextSerial + 1 := e.nextSerial
    rw [e'.nextSerial, hn]
    exact Nat.le_succ _
  · have hs : f₁.countUnreachable.mailboxes = f.mailboxes.push .waiting := e.mailboxes
    rw [e'.size, hs, Array.size_push]
    exact Nat.le_succ _
  · intro x hx
    rw [hlive'] at hx
    exact Or.inl hx
  · intro m hm _
    have hs : f₁.countUnreachable.mailboxes = f.mailboxes.push .waiting := e.mailboxes
    rw [e'.kept m, hs, Array.getElem?_push, if_neg (Nat.ne_of_lt hm)]
    intro x hx hg
    rw [hlive, List.mem_append, List.mem_singleton] at hx
    rcases hx with hx | rfl
    · rw [hnamed x hx] at hg
      cases hg
    · rw [e.payload]
      exact Nat.ne_of_gt hm
  · intro x hx hn
    rw [hlive'] at hn
    exact absurd hx hn

/-- Giving something up, or failing, is a step: it ends the query of a handle, or changes nothing. -/
theorem Coherent.step_of_clear (h : f.Coherent) (a : Action) (token : Token) (contents : Mailbox)
    (hc : ∀ octets, contents ≠ .delivered octets)
    (hends : ∀ r ∈ f.live, token = r.token → f.Ends (·.named r.token) contents f')
    (heq : (∀ r ∈ f.live, r.token ≠ token) → f' = f) : f.Step a f' := by
  by_cases ht : ∃ r ∈ f.live, token = r.token
  · obtain ⟨r, hr, ht⟩ := ht
    exact (hends r hr ht).step a fun octets ho => absurd ho (hc octets)
  · rw [heq fun r hr he => ht ⟨r, hr, he.symm⟩]
    exact h.step_of_unchanged a f.stats

/-- Taking in octets is a step. -/
theorem Coherent.step_of_receive (h : f.Coherent) (a : Action) {octets : Octets} {source : Endpoint}
    (ha : a.arrival? = some (octets, source)) : f.Step a (f.receive octets source).2 := by
  cases hp : Response.parse? octets source with
  | error e =>
    rw [receive_malformed f hp]
    exact h.step_of_unchanged a _
  | ok response =>
    rcases h.receive_cases hp with ⟨-, he⟩ | ⟨r, -, -, he⟩ | ⟨reason, r, -, -, -, he⟩ |
      ⟨r, hr, hkey, hpasses, -, -, hends⟩
    · rw [he]
      exact h.step_of_unchanged a _
    · rw [he]
      exact h.step_of_unchanged a _
    · rw [he]
      exact h.step_of_unchanged a _
    · refine hends.step a fun o ho x hx hg => ?_
      cases ho
      rw [(h.named_iff hx hr).1 hg]
      exact ⟨source, ha, ⟨response, hp, hkey, hpasses⟩, hends.live⟩

/-- Every action is a step. -/
theorem Coherent.step (h : f.Coherent) (a : Action) : f.Step a (f.act a) := by
  cases a with
  | send now draws failure out resolver =>
    rcases h.send_cases now draws failure out resolver with ⟨e, he⟩ | ⟨sent, f', he, hs⟩ | ⟨e, f₁, f', he, sent, hs, hends⟩
    · rw [act, he]
      exact h.step_of_unchanged _ f.stats
    · rw [act, he]
      exact hs.adds.step _
    · rw [act, he]
      exact hs.adds.step_ends h hends _
  | meet event =>
    cases event with
    | datagram octets source => exact h.step_of_receive _ rfl
    | connectionReply handle octets => exact h.step_of_receive _ rfl
    | connectionFailed handle failure =>
      exact h.step_of_clear _ handle.token (.failed (.unreachable failure)) (fun _ => nofun)
        (fun r hr ht => h.connectionFailed_ends hr ht failure) fun ht => h.connectionFailed_eq ht failure
    | sweep now => exact (h.sweep_ends now).step _ fun _ he => nomatch he
  | cancel handle =>
    exact h.step_of_clear _ handle.token .closed (fun _ => nofun) (fun r hr ht => h.cancel_ends hr ht)
      fun ht => h.cancel_eq ht
  | wait handle =>
    rw [act, wait]
    split
    · exact h.step_of_clear _ handle.token .closed (fun _ => nofun) (fun r hr ht => h.cancel_ends hr ht)
        fun ht => h.cancel_eq ht
    · exact h.step_of_clear _ handle.token .closed (fun _ => nofun) (fun r hr ht => h.expire_ends hr ht)
        fun ht => h.expire_eq ht

/-- A mailbox that no longer waits keeps what is in it. -/
theorem Step.settled (h : f.Coherent) {a : Action} (s : f.Step a f') {m : Nat} (hm : m < f.mailboxes.size)
    (hw : f.mailboxes[m]? ≠ some .waiting) : f'.mailboxes[m]? = f.mailboxes[m]? :=
  s.kept m hm fun r hr he => absurd ((h.waiting m).2 ⟨r, hr, he⟩) hw

/-- The mailbox of a query that ends waits no longer. -/
theorem Step.not_waiting (h : f.Coherent) {a : Action} (s : f.Step a f') {r : Registration Nat} (hr : r ∈ f.live)
    (hr' : r ∉ f'.live) : f'.mailboxes[r.payload]? ≠ some .waiting := by
  intro hw
  obtain ⟨x, hx, hxr⟩ := (s.coherent.waiting r.payload).1 hw
  rcases s.fresh x hx with hx' | ⟨-, hle⟩
  · exact hr' (h.eq_of_payload hx' hr hxr ▸ hx)
  · have hlt := h.payload_lt hr
    omega

end Steps

/-! ## Many actions -/

section Runs

variable {f : Forwarder} {actions : List Action}

theorem run_append (f : Forwarder) (before rest : List Action) : f.run (before ++ rest) = (f.run before).run rest := by
  rw [run, List.foldl_append]
  rfl

/-- After all actions the run is over. -/
theorem after_length (f : Forwarder) (actions : List Action) : f.after actions actions.length = f.run actions := by
  rw [after, List.take_length]

/-- The next action of a run acts on the forwarder that the actions before it left. -/
theorem after_succ (f : Forwarder) {k : Nat} {a : Action} (ha : actions[k]? = some a) :
    f.after actions (k + 1) = (f.after actions k).act a := by
  rw [after, List.take_add_one, ha, run_append]
  rfl

/-- Behind the last action nothing happens any more. -/
theorem after_succ_of_none (f : Forwarder) {k : Nat} (ha : actions[k]? = none) :
    f.after actions (k + 1) = f.after actions k := by
  rw [after, List.take_add_one, ha, run_append]
  rfl

/-- A property of coherent forwarders that every action keeps is kept by a run. -/
theorem after_induction {P : Forwarder → Prop} (hstep : ∀ g a, g.Coherent → P g → P (g.act a)) {j k : Nat}
    (hjk : j ≤ k) (hc : (f.after actions j).Coherent) (hj : P (f.after actions j)) :
    (f.after actions k).Coherent ∧ P (f.after actions k) := by
  induction hjk with
  | refl => exact ⟨hc, hj⟩
  | @step k _ ih =>
    cases ha : actions[k]? with
    | none =>
      rw [after_succ_of_none f ha]
      exact ih
    | some a =>
      rw [after_succ f ha]
      exact ⟨(ih.1.step a).coherent, hstep _ a ih.1 ih.2⟩

/-- A run keeps a forwarder coherent. -/
theorem Coherent.after (h : f.Coherent) (actions : List Action) (k : Nat) : (f.after actions k).Coherent :=
  (after_induction (P := fun _ => True) (fun _ _ _ _ => trivial) (Nat.zero_le k) h trivial).1

/-- A run keeps a forwarder coherent to its end. -/
theorem Coherent.run (h : f.Coherent) (actions : List Action) : (f.run actions).Coherent := by
  rw [← after_length]
  exact h.after actions _

/-- Every state that a run leads to is coherent. -/
theorem Reachable.coherent (h : f.Reachable) : f.Coherent := by
  obtain ⟨config, validator, actions, rfl⟩ := h
  exact (coherent_start config validator).run actions

/-- A run keeps the settings. -/
theorem Coherent.after_config (h : f.Coherent) (actions : List Action) (k : Nat) :
    (f.after actions k).config = f.config ∧ (f.after actions k).validator = f.validator :=
  (after_induction (P := fun g => g.config = f.config ∧ g.validator = f.validator)
    (fun _ a hg hP => ⟨(hg.step a).config.trans hP.1, (hg.step a).validator.trans hP.2⟩) (Nat.zero_le k) h ⟨rfl, rfl⟩).2

/-- A registration that a run ends with, and whose serial number had been given out before the run, was there before. -/
theorem Coherent.mem_live_of_old (h : f.Coherent) {j k : Nat} (hjk : j ≤ k) {r : Registration Nat}
    (hr : r ∈ (f.after actions k).live) (hold : r.token.serial < (f.after actions j).table.nextSerial) :
    r ∈ (f.after actions j).live := by
  have hP := (after_induction (f := f) (P := fun g =>
    (f.after actions j).table.nextSerial ≤ g.table.nextSerial ∧
      ∀ x ∈ g.live, x.token.serial < (f.after actions j).table.nextSerial → x ∈ (f.after actions j).live)
    ?_ hjk (h.after actions j) ⟨Nat.le_refl _, fun x hx _ => hx⟩).2
  · exact hP.2 r hr hold
  · rintro g a hg ⟨hle, hP⟩
    refine ⟨Nat.le_trans hle (hg.step a).nextSerial, fun x hx hlt => ?_⟩
    rcases (hg.step a).fresh x hx with hx | ⟨hx, -⟩
    · exact hP x hx hlt
    · omega

/-- Serial numbers given out stay given out. -/
theorem Coherent.nextSerial_le (h : f.Coherent) (actions : List Action) {j k : Nat} (hjk : j ≤ k) :
    (f.after actions j).table.nextSerial ≤ (f.after actions k).table.nextSerial :=
  (after_induction (P := fun g => (f.after actions j).table.nextSerial ≤ g.table.nextSerial)
    (fun _ a hg hP => Nat.le_trans hP (hg.step a).nextSerial) hjk (h.after actions j) (Nat.le_refl _)).2

/-- A mailbox that no longer waits keeps what is in it to the end. -/
theorem Coherent.settled_after (h : f.Coherent) (actions : List Action) {j k : Nat} (hjk : j ≤ k) {m : Nat}
    (hm : m < (f.after actions j).mailboxes.size) (hw : (f.after actions j).mailboxes[m]? ≠ some .waiting) :
    (f.after actions k).mailboxes[m]? = (f.after actions j).mailboxes[m]? := by
  refine (after_induction (f := f) (P := fun g => m < g.mailboxes.size ∧
    g.mailboxes[m]? = (f.after actions j).mailboxes[m]?) ?_ hjk (h.after actions j) ⟨hm, rfl⟩).2.2
  rintro g a hg ⟨hlt, hP⟩
  have hs := hg.step a
  exact ⟨Nat.lt_of_lt_of_le hlt hs.size, (hs.settled hg hlt (by rw [hP]; exact hw)).trans hP⟩

/-- A pending query stays pending until one action ends it. -/
theorem live_or_ended {j k : Nat} (hjk : j ≤ k) {r : Registration Nat} (hr : r ∈ (f.after actions j).live) :
    r ∈ (f.after actions k).live ∨ ∃ i, j ≤ i ∧ i < k ∧ r ∈ (f.after actions i).live ∧
      r ∉ (f.after actions (i + 1)).live := by
  induction hjk with
  | refl => exact Or.inl hr
  | @step k hjk ih =>
    rcases ih with hk | ⟨i, hji, hik, hi, hi'⟩
    · by_cases hk' : r ∈ (f.after actions (k + 1)).live
      · exact Or.inl hk'
      · exact Or.inr ⟨k, hjk, Nat.lt_succ_self k, hk, hk'⟩
    · exact Or.inr ⟨i, hji, Nat.lt_succ_of_lt hik, hi, hi'⟩

end Runs

end Forwarder

end DnsRelay

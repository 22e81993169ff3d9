import Mathlib
import DnsRelay.Proofs.Route
import DnsRelay.Proofs.Transcript

/-!
# What a route table remembers

A route table takes calls one after another. Whatever they are, no name is in the table twice, in whatever case (`Proper`), and the
route of a name is the one that was taken in last for it (`LatestAt`); the main result is `remembered_exact`.
-/

namespace DnsRelay

/-- What a route table can be asked. -/
inductive RouteCall where
  | insert (name : Name) (route : Route)
  | get (name : Name)
  | decide (q : Question)
  | size
  | isEmpty
  deriving DecidableEq, Repr

/-- What a route table answers. -/
inductive RouteAnswer where
  | inserted (taken : Bool)
  | got (route : Option Route)
  | decided (decision : Decision)
  | size (n : Nat)
  | isEmpty (b : Bool)
  deriving DecidableEq, Repr

namespace RouteTable

/-- A route table answers a call. -/
def answer (t : RouteTable) : RouteCall → RouteAnswer × RouteTable
  | .insert name route => (.inserted (t.insert name route).1, (t.insert name route).2)
  | .get name => (.got (t.get? name), t)
  | .decide q => (.decided (t.decide q), t)
  | .size => (.size t.size, t)
  | .isEmpty => (.isEmpty t.isEmpty, t)

/-- No name is in a table twice, in whatever case, and there are no more of them than the table has room for. -/
structure Proper (t : RouteTable) : Prop where
  apart : t.routes.Pairwise fun a b => a.1.same b.1 = false
  size_le : t.size ≤ t.capacity

/-! ## One call -/

variable {t : RouteTable} {name : Name} {route : Route}

/-- A name is known iff it is in the table, in some case. -/
theorem get?_ne_none_iff (t : RouteTable) (name : Name) :
    t.get? name ≠ none ↔ ∃ stored ∈ t.routes.map (·.1), stored.same name = true := by
  rw [get?, ne_eq, Option.map_eq_none_iff, List.find?_eq_none]
  simp

/-- Dropping a name that is in a list, in some case, makes the list shorter by one. -/
theorem length_filter_of_apart {routes : List (Name × Route)} (h : routes.Pairwise fun a b => a.1.same b.1 = false)
    (hknown : ∃ e ∈ routes, e.1.same name = true) : (routes.filter fun e => !e.1.same name).length + 1 = routes.length := by
  induction h with
  | nil => simp at hknown
  | @cons e routes he _ ih =>
    by_cases hsame : e.1.same name = true
    · -- no other entry is the same name
      have hothers : ∀ x ∈ routes, (!x.1.same name) = true := by
        intro x hx
        rw [Name.same_comm, ← Name.same_congr hsame, he x hx]
        rfl
      rw [List.filter_cons, hsame, List.filter_eq_self.2 hothers]
      rfl
    · obtain ⟨x, hx, hxsame⟩ := hknown
      have hmem : x ∈ routes := (List.mem_cons.1 hx).resolve_left fun h => hsame (h ▸ hxsame)
      rw [Bool.not_eq_true] at hsame
      simp [hsame, ih ⟨x, hmem, hxsame⟩]

/-- A table keeps its capacity. -/
theorem capacity_insert (t : RouteTable) (name : Name) (route : Route) : (t.insert name route).2.capacity = t.capacity := by
  rcases t.insert_cases name route with ⟨-, he⟩ | ⟨-, he⟩ <;> rw [he]

/-- A name that is taken in counts iff it was not known. -/
theorem Proper.size_insert (h : t.Proper) (htaken : (t.insert name route).1 = true) :
    (t.insert name route).2.size = if t.get? name = none then t.size + 1 else t.size := by
  rcases t.insert_cases name route with ⟨-, he⟩ | ⟨-, he⟩
  · rw [he] at htaken
    cases htaken
  rw [he]
  by_cases hname : t.get? name = none
  · have hothers : ∀ e ∈ t.routes, (!e.1.same name) = true := by
      simpa [get?] using hname
    rw [if_pos hname, size, size, List.length_cons, List.filter_eq_self.2 hothers]
  · obtain ⟨stored, hstored, hsame⟩ := (get?_ne_none_iff t name).1 hname
    obtain ⟨e, he', rfl⟩ := List.mem_map.1 hstored
    rw [if_neg hname, size, size, List.length_cons, length_filter_of_apart h.apart ⟨e, he', hsame⟩]

/-- A name is refused iff it is not known and the table is full. -/
theorem Proper.insert_eq_false_iff (h : t.Proper) (name : Name) (route : Route) :
    (t.insert name route).1 = false ↔ t.get? name = none ∧ t.size = t.capacity := by
  rw [← Bool.not_eq_true, insert_eq_true_iff, not_or, not_ne_iff, Nat.not_lt, Nat.le_antisymm_iff, and_congr_right_iff]
  exact fun _ => (and_iff_right h.size_le).symm

/-- Inserting a name keeps a table proper. -/
theorem Proper.insert (h : t.Proper) (name : Name) (route : Route) : (t.insert name route).2.Proper := by
  rcases t.insert_cases name route with ⟨-, he⟩ | ⟨hroom, he⟩
  · rw [he]
    exact h
  have hsize := h.size_insert (show (t.insert name route).1 = true by rw [he])
  have hcapacity := t.capacity_insert name route
  refine ⟨?_, ?_⟩
  · rw [he]
    refine List.pairwise_cons.2 ⟨fun e hmem => ?_, h.apart.filter _⟩
    -- what stays in the table is not the name that is put in front of it
    have hne : (!e.1.same name) = true := (List.mem_filter.1 hmem).2
    rwa [Name.same_congr name.same_lower, Name.same_comm, ← Bool.not_eq_true']
  · rw [hsize, hcapacity]
    split
    · rename_i hname
      exact hroom.resolve_left (fun hknown => hknown hname)
    · exact h.size_le

/-- Every call keeps a table proper. -/
theorem Proper.answer (h : t.Proper) (call : RouteCall) : (t.answer call).2.Proper := by
  cases call with
  | insert name route => exact h.insert name route
  | _ => exact h

/-- A table that remembers nothing is proper. -/
theorem proper_empty (capacity : Nat) : (empty capacity).Proper := ⟨.nil, Nat.zero_le _⟩

/-! ## Call after call -/

/-- The call behind `k` others takes in a route for a name. -/
def TakenAt (start : RouteTable) (calls : List RouteCall) (k : Nat) (name : Name) (route : Route) : Prop :=
  calls[k]? = some (.insert name route) ∧ (transcript answer start calls).1[k]? = some (.inserted true)

/-- The route is the one that the first `k` calls have taken in last for the name, in whatever case. -/
def LatestAt (start : RouteTable) (calls : List RouteCall) (k : Nat) (name : Name) (route : Route) : Prop :=
  ∃ j < k, ∃ spelled, TakenAt start calls j spelled route ∧ spelled.same name = true ∧
    ∀ i < k, j < i → ∀ other route', TakenAt start calls i other route' → other.same name = false

section History

variable {start : RouteTable} {calls : List RouteCall} {k : Nat}

/-- What a call is answered. -/
theorem getElem?_answers {call : RouteCall} (hk : calls[k]? = some call) :
    (transcript answer start calls).1[k]? = some ((stateAt answer start calls k).answer call).1 := by
  rw [getElem?_transcript, hk]
  rfl

/-- A call takes in one route for one name. -/
theorem TakenAt.eq {spelled : Name} {route' : Route} (h : TakenAt start calls k name route)
    (h' : TakenAt start calls k spelled route') : name = spelled ∧ route = route' := by
  have hcall := Option.some.inj (h.1.symm.trans h'.1)
  cases hcall
  exact ⟨rfl, rfl⟩

/-- A call takes in a route, or leaves the table as it is. -/
theorem taken_or_kept (start : RouteTable) (calls : List RouteCall) (k : Nat) :
    (∃ name route, TakenAt start calls k name route ∧ ((stateAt answer start calls k).insert name route).1 = true ∧
      stateAt answer start calls (k + 1) = ((stateAt answer start calls k).insert name route).2) ∨
    (∀ name route, ¬TakenAt start calls k name route) ∧ stateAt answer start calls (k + 1) = stateAt answer start calls k := by
  cases hk : calls[k]? with
  | none =>
    refine Or.inr ⟨fun name route h => ?_, stateAt_succ_of_none hk⟩
    rw [h.1] at hk
    cases hk
  | some call =>
    have hanswer : (transcript answer start calls).1[k]? = _ := getElem?_answers hk
    have hnext : stateAt answer start calls (k + 1) = _ := stateAt_succ hk
    cases call with
    | insert name route =>
      cases htaken : ((stateAt answer start calls k).insert name route).1 with
      | true => exact Or.inl ⟨name, route, ⟨hk, by rw [hanswer, answer, htaken]⟩, htaken, hnext⟩
      | false =>
        refine Or.inr ⟨fun other route' h => ?_, hnext.trans (insert_of_refused htaken)⟩
        have htaken' := h.2
        rw [hanswer, answer, htaken] at htaken'
        cases htaken'
    | _ =>
      refine Or.inr ⟨fun name route h => ?_, hnext⟩
      have hcall := h.1
      rw [hk] at hcall
      cases hcall

/-- Behind a call that takes in a route, this is the latest route of its name; that of every other name is the latest one
before. -/
theorem latestAt_succ_of_taken {spelled : Name} {taken : Route} (h : TakenAt start calls k spelled taken) (name : Name)
    (route : Route) : LatestAt start calls (k + 1) name route ↔
      if spelled.same name then taken = route else LatestAt start calls k name route := by
  cases hsame : spelled.same name with
  | true =>
    rw [if_pos rfl]
    constructor
    · rintro ⟨j, hj, other, hother, -, hlast⟩
      rcases Nat.lt_succ_iff_lt_or_eq.1 hj with hj | rfl
      · have hfalse := hlast k (Nat.lt_succ_self k) hj spelled taken h
        rw [hsame] at hfalse
        cases hfalse
      · exact (h.eq hother).2
    · rintro rfl
      exact ⟨k, Nat.lt_succ_self k, spelled, h, hsame, fun i hi hki => absurd (Nat.le_of_lt_succ hi) (Nat.not_le.2 hki)⟩
  | false =>
    rw [if_neg Bool.false_ne_true]
    constructor
    · rintro ⟨j, hj, other, hother, hname, hlast⟩
      rcases Nat.lt_succ_iff_lt_or_eq.1 hj with hj | rfl
      · exact ⟨j, hj, other, hother, hname, fun i hi => hlast i (Nat.lt_succ_of_lt hi)⟩
      · obtain ⟨rfl, -⟩ := h.eq hother
        rw [hsame] at hname
        cases hname
    · rintro ⟨j, hj, other, hother, hname, hlast⟩
      refine ⟨j, Nat.lt_succ_of_lt hj, other, hother, hname, fun i hi hji x route' hx => ?_⟩
      rcases Nat.lt_succ_iff_lt_or_eq.1 hi with hi | rfl
      · exact hlast i hi hji x route' hx
      · obtain ⟨rfl, -⟩ := h.eq hx
        exact hsame

/-- Behind a call that takes in no route, the latest routes are those before it. -/
theorem latestAt_succ_of_kept (h : ∀ name route, ¬TakenAt start calls k name route) (name : Name) (route : Route) :
    LatestAt start calls (k + 1) name route ↔ LatestAt start calls k name route := by
  constructor
  · rintro ⟨j, hj, other, hother, hname, hlast⟩
    rcases Nat.lt_succ_iff_lt_or_eq.1 hj with hj | rfl
    · exact ⟨j, hj, other, hother, hname, fun i hi => hlast i (Nat.lt_succ_of_lt hi)⟩
    · exact absurd hother (h other route)
  · rintro ⟨j, hj, other, hother, hname, hlast⟩
    refine ⟨j, Nat.lt_succ_of_lt hj, other, hother, hname, fun i hi hji x route' hx => ?_⟩
    rcases Nat.lt_succ_iff_lt_or_eq.1 hi with hi | rfl
    · exact hlast i hi hji x route' hx
    · exact absurd hx (h x route')

end History

section FromEmpty

variable (capacity : Nat) (calls : List RouteCall)

/-- The route of a name is the one that was taken in last for it. -/
theorem get?_eq_some_iff_latestAt (k : Nat) (name : Name) (route : Route) :
    (stateAt answer (empty capacity) calls k).get? name = some route ↔ LatestAt (empty capacity) calls k name route := by
  induction k generalizing route with
  | zero =>
    rw [stateAt_zero]
    constructor
    · intro h
      cases h
    · rintro ⟨j, hj, -⟩
      exact absurd hj (Nat.not_lt_zero j)
  | succ k ih =>
    rcases taken_or_kept (empty capacity) calls k with ⟨spelled, taken, htaken, hroom, hnext⟩ | ⟨hnone, hnext⟩
    · rw [hnext, get?_insert hroom, latestAt_succ_of_taken htaken]
      split
      · exact Option.some_inj
      · exact ih route
    · rw [hnext, latestAt_succ_of_kept hnone, ih route]

/-- A name is known iff a route was taken in for it, in some case. -/
theorem get?_ne_none_iff_taken (k : Nat) (name : Name) : (stateAt answer (empty capacity) calls k).get? name ≠ none ↔
    ∃ j < k, ∃ spelled route, TakenAt (empty capacity) calls j spelled route ∧ spelled.same name = true := by
  induction k with
  | zero =>
    rw [stateAt_zero]
    constructor
    · intro h
      exact absurd rfl h
    · rintro ⟨j, hj, -⟩
      exact absurd hj (Nat.not_lt_zero j)
  | succ k ih =>
    simp only [Nat.lt_succ_iff_lt_or_eq, or_and_right, exists_or, exists_eq_left]
    rw [← ih]
    rcases taken_or_kept (empty capacity) calls k with ⟨spelled, taken, htaken, hroom, hnext⟩ | ⟨hnone, hnext⟩
    · rw [hnext, get?_insert hroom]
      cases hsame : spelled.same name with
      | true => simpa using Or.inr ⟨spelled, ⟨taken, htaken⟩, hsame⟩
      | false =>
        have hother : ¬∃ other route, TakenAt (empty capacity) calls k other route ∧ other.same name = true := by
          rintro ⟨other, route, hother, hname⟩
          obtain ⟨rfl, -⟩ := htaken.eq hother
          rw [hsame] at hname
          cases hname
        rw [if_neg Bool.false_ne_true, or_iff_left hother]
    · rw [hnext, or_iff_left]
      rintro ⟨other, route, hother, -⟩
      exact hnone other route hother

/-- Whatever is asked of it, a table stays proper and keeps its capacity. -/
theorem proper_stateAt (k : Nat) :
    (stateAt answer (empty capacity) calls k).Proper ∧ (stateAt answer (empty capacity) calls k).capacity = capacity := by
  refine stateAt_induction (P := fun t : RouteTable => t.Proper ∧ t.capacity = capacity) ?_ (Nat.zero_le k) ?_
  · rintro t call ⟨hproper, hcapacity⟩
    refine ⟨hproper.answer call, ?_⟩
    cases call with
    | insert name route => exact (t.capacity_insert name route).trans hcapacity
    | _ => exact hcapacity
  · rw [stateAt_zero]
    exact ⟨proper_empty capacity, rfl⟩

end FromEmpty

/-- What a route table remembers, beginning with an empty one. A name has the route that was taken in last for it, in whatever
case. A name is refused, and nothing changes, iff it is new and the table is full. The size is the number of names that are
not the same, at most the capacity. Reverse questions go direct, and all others as their name does. -/
theorem remembered_exact (capacity : Nat) (calls : List RouteCall) (k : Nat) :
    let table := stateAt answer (empty capacity) calls
    let answers := (transcript answer (empty capacity) calls).1
    (∀ name, (∀ route, (table k).get? name = some route ↔ LatestAt (empty capacity) calls k name route) ∧
      ((table k).get? name ≠ none ↔
        ∃ j < k, ∃ spelled route, TakenAt (empty capacity) calls j spelled route ∧ spelled.same name = true) ∧
      (calls[k]? = some (.get name) → answers[k]? = some (.got ((table k).get? name)))) ∧
    (∀ name route, calls[k]? = some (.insert name route) →
      (answers[k]? = some (.inserted false) ↔ (table k).get? name = none ∧ (table k).size = capacity) ∧
      (answers[k]? = some (.inserted false) → table (k + 1) = table k) ∧
      ((table k).get? name ≠ none → answers[k]? = some (.inserted true) ∧ (table (k + 1)).get? name = some route ∧
        (table (k + 1)).size = (table k).size) ∧
      ((table k).get? name = none → (table k).size < capacity → answers[k]? = some (.inserted true) ∧
        (table (k + 1)).get? name = some route ∧ (table (k + 1)).size = (table k).size + 1)) ∧
    (∀ name, (table k).get? name ≠ none → ∀ later ≥ k, (table later).get? name ≠ none) ∧
    ((table k).size ≤ capacity ∧
      (∃ names : List Name, (names.Pairwise fun a b => a.same b = false) ∧ names.length = (table k).size ∧
        ∀ name, (table k).get? name ≠ none ↔ ∃ stored ∈ names, stored.same name = true) ∧
      (calls[k]? = some .size → answers[k]? = some (.size (table k).size)) ∧
      (calls[k]? = some .isEmpty → ∃ b, answers[k]? = some (.isEmpty b) ∧ (b = true ↔ (table k).size = 0))) ∧
    ∀ q, calls[k]? = some (.decide q) → ∃ decision, answers[k]? = some (.decided decision) ∧
      (q.qtype = RRType.ptr → decision = .known .direct) ∧
      (q.qtype ≠ RRType.ptr →
        (∀ route, decision = .known route ↔ (table k).get? q.qname = some route) ∧
        (decision = .probe ↔ (table k).get? q.qname = none)) := by
  intro table answers
  obtain ⟨hproper, hcapacity⟩ := proper_stateAt capacity calls k
  have hanswer {call : RouteCall} (hk : calls[k]? = some call) : answers[k]? = some ((table k).answer call).1 :=
    getElem?_answers hk
  refine ⟨fun name => ⟨?_, ?_, hanswer⟩, fun name route hk => ?_, fun name hname later hlater => ?_, ⟨?_, ?_, hanswer, ?_⟩, ?_⟩
  · exact get?_eq_some_iff_latestAt capacity calls k name
  · exact get?_ne_none_iff_taken capacity calls k name
  · have hnext : table (k + 1) = ((table k).insert name route).2 := stateAt_succ hk
    have hrefused : answers[k]? = some (.inserted false) ↔ ((table k).insert name route).1 = false := by
      rw [hanswer hk]
      simp [answer]
    have htakes (h : (table k).get? name ≠ none ∨ (table k).size < capacity) : answers[k]? = some (.inserted true) ∧
        (table (k + 1)).get? name = some route ∧
          (table (k + 1)).size = if (table k).get? name = none then (table k).size + 1 else (table k).size := by
      rw [← hcapacity, ← insert_eq_true_iff (table k) name route] at h
      rw [hanswer hk, answer, h, hnext, get?_insert h, name.same_refl, hproper.size_insert h]
      exact ⟨rfl, rfl, rfl⟩
    refine ⟨?_, fun h => ?_, fun hknown => ?_, fun hname hroom => ?_⟩
    · rw [hrefused, hproper.insert_eq_false_iff, hcapacity]
    · rw [hnext, insert_of_refused (hrefused.1 h)]
    · have h := htakes (Or.inl hknown)
      rwa [if_neg hknown] at h
    · have h := htakes (Or.inr hroom)
      rwa [if_pos hname] at h
  · obtain ⟨j, hj, htaken⟩ := (get?_ne_none_iff_taken capacity calls k name).1 hname
    exact (get?_ne_none_iff_taken capacity calls later name).2 ⟨j, Nat.lt_of_lt_of_le hj hlater, htaken⟩
  · exact hcapacity ▸ hproper.size_le
  · exact ⟨(table k).routes.map (·.1), List.pairwise_map.2 hproper.apart, List.length_map _, get?_ne_none_iff (table k)⟩
  · intro hk
    exact ⟨(table k).isEmpty, hanswer hk, List.isEmpty_iff_length_eq_zero⟩
  · intro q hk
    refine ⟨(table k).decide q, hanswer hk, fun hptr => if_pos hptr, fun hptr => ?_⟩
    rw [RouteTable.decide, if_neg hptr]
    cases (table k).get? q.qname <;> simp

/-- A table with room for one name takes in `a.`, refuses `b.`, and takes in another route for `A.`, which `a.` has from then
on. -/
theorem remembered_exact_full :
    let a : Name := ⟨[1, 97, 0]⟩
    let b : Name := ⟨[1, 98, 0]⟩
    let capital : Name := ⟨[1, 65, 0]⟩
    let q : Question := ⟨b, RRType.a, RRClass.internet⟩
    let calls : List RouteCall := [.insert a .direct, .insert b .trusted, .insert capital .trusted, .get a, .decide q]
    (transcript answer (empty 1) calls).1 =
        [.inserted true, .inserted false, .inserted true, .got (some .trusted), .decided .probe] ∧
      LatestAt (empty 1) calls 3 a .trusted ∧ stateAt answer (empty 1) calls 2 = stateAt answer (empty 1) calls 1 := by
  intro a b capital q calls
  have hanswers : (transcript answer (empty 1) calls).1 =
      [.inserted true, .inserted false, .inserted true, .got (some .trusted), .decided .probe] := by cbv
  have hlatest := ((remembered_exact 1 calls 3).1 a).1 .trusted
  have hrefused := ((remembered_exact 1 calls 1).2.1 b .trusted rfl).2.1
  exact ⟨hanswers, hlatest.1 (by cbv), hrefused (by rw [hanswers]; rfl)⟩

end RouteTable

end DnsRelay

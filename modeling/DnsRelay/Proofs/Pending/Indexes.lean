import DnsRelay.Proofs.Pending.History

/-!
# The indexes of a table

Both indexes of a table lead to the entries in its slots and to nothing else: the one by key from each key to its slot, the
one by id from each id in use to all of its slots in the order of registration (`Indexed`). Part of it is what `Represents`
says of looking up, the other part is that no key and no id has two records (`Keyed`). So wherever an operation takes it that
a slot holds an entry, the slot does; to say so, the operations are written once more with an empty slot as an outcome of its
own (`answerHeld?`).
-/

namespace DnsRelay

namespace PendingTable

variable {P : Type}

open IndexAux

/-! ## One record for each key -/

/-- No key and no id has two records. -/
structure Keyed (t : PendingTable P) : Prop where
  byKey : (t.byKey.map (·.1)).Nodup
  byId : (t.byId.map (·.1)).Nodup

/-- An empty table has no records. -/
theorem keyed_empty (capacity : Nat) : (empty capacity : PendingTable P).Keyed :=
  ⟨List.nodup_nil, List.nodup_nil⟩

namespace Keyed

variable {t t' : PendingTable P}

/-- Registering puts in front a record of a key that had none. -/
theorem register (h : t.Keyed) {query : PendingQuery} {payload : P} {token : Token}
    (hr : t.register query payload = .ok (token, t')) : t'.Keyed := by
  unfold PendingTable.register at hr
  dsimp only at hr
  split at hr
  · cases hr
  · rename_i hfree
    split at hr
    · cases hr
    · cases hr
      refine ⟨nodup_cons h.byKey (fun x hx he => hfree ?_) _, nodup_updateSlots h.byId query.id (· ++ [_])⟩
      have hfound := (mem_iff_lookup h.byKey x.1 x.2).1 hx
      rw [← he, hfound]
      rfl

/-- Taking an entry out takes its records out. -/
theorem remove (h : t.Keyed) {i : Nat} {gone : PendingQuery × P} (hr : t.remove i = some (gone, t')) : t'.Keyed := by
  obtain ⟨entry, -, he⟩ := Option.map_eq_some_iff.1 hr
  cases he
  exact ⟨nodup_filter h.byKey _, nodup_updateSlots h.byId _ _⟩

/-- So does taking out several. -/
theorem removeAll (h : t.Keyed) (slots : List Nat) : (t.removeAll slots).2.Keyed := by
  induction slots generalizing t with
  | nil => exact h
  | cons i is ih =>
    rw [PendingTable.removeAll]
    split
    · rename_i gone t' hr
      exact ih (h.remove hr)
    · exact ih h

/-- Whatever a table is asked, no key and no id gets two records. -/
theorem answer (h : t.Keyed) (call : TableCall P) : (t.answer call).2.Keyed := by
  rcases t.answer_leaves call with he | ⟨query, payload, token, hr⟩ | ⟨slots, he⟩
  · rwa [he]
  · exact h.register hr
  · rw [he]
    exact h.removeAll slots

end Keyed

/-! ## What the indexes lead to -/

/-- Both indexes lead to the entries and to nothing else, the entries have different numbers, and there are no more of them
than the table has room for. -/
structure Indexed (t : PendingTable P) : Prop where
  /-- No key has two records. -/
  keys_nodup : (t.byKey.map (·.1)).Nodup
  /-- The index by key leads from the key of each entry to its slot. -/
  byKey : ∀ key i, (key, i) ∈ t.byKey ↔ ∃ e, t.entries.get? i = some e ∧ (e.query.id, e.query.server) = key
  /-- No id has two records. -/
  ids_nodup : (t.byId.map (·.1)).Nodup
  /-- The index by id has the ids of the entries. -/
  ids : ∀ id, (∃ slots, (id, slots) ∈ t.byId) ↔ ∃ i e, t.entries.get? i = some e ∧ e.query.id = id
  /-- It leads from each of them to the slots of all entries with this id. -/
  byId : ∀ id slots, (id, slots) ∈ t.byId → ∀ i, i ∈ slots ↔ ∃ e, t.entries.get? i = some e ∧ e.query.id = id
  /-- There are some, and none is listed twice. -/
  slots_nodup : ∀ id slots, (id, slots) ∈ t.byId → slots ≠ [] ∧ slots.Nodup
  /-- They are listed in the order of registration. -/
  sorted : ∀ id slots, (id, slots) ∈ t.byId →
    slots.Pairwise fun i j => ∀ a b, t.entries.get? i = some a → t.entries.get? j = some b → a.serial < b.serial
  canonical : ∀ i e, t.entries.get? i = some e → e.query.server.canonical = e.query.server
  serials : ∀ i j a b, t.entries.get? i = some a → t.entries.get? j = some b → a.serial = b.serial → i = j
  fresh : ∀ i e, t.entries.get? i = some e → e.serial < t.nextSerial
  size : (t.entries.indexesWhere fun _ => true).length = t.size
  bounded : t.size ≤ t.capacity

namespace Represents

variable {t : PendingTable P} {l : List (Registration P)}

/-- A registration of some kind has a slot iff the slot holds an entry of this kind. -/
theorem exists_mem_iff (h : t.Represents l) (i : Nat) (p : PendingEntry P → Prop) :
    (∃ r ∈ l, p r.entry ∧ r.token.index = i) ↔ ∃ e, t.entries.get? i = some e ∧ p e := by
  constructor
  · rintro ⟨r, hr, hp, rfl⟩
    exact ⟨r.entry, h.get?_of_mem hr, hp⟩
  · rintro ⟨e, he, hp⟩
    exact ⟨e.registration i, (h.holds i e).1 he, hp, rfl⟩

/-- The slots of the registrations of an id are those with an entry of this id. -/
theorem mem_slots_iff (h : t.Represents l) (id : UInt16) (i : Nat) :
    i ∈ (l.filter (·.query.id = id)).map (·.token.index) ↔ ∃ e, t.entries.get? i = some e ∧ e.query.id = id := by
  rw [← h.exists_mem_iff i fun e => e.query.id = id]
  simp only [List.mem_map, List.mem_filter, decide_eq_true_eq, and_assoc, Registration.entry]

/-- The records of the index by id, if no id has two: an id that is in use, and the slots of its registrations in their order. -/
theorem mem_byId_iff (h : t.Represents l) (hkeyed : t.Keyed) (id : UInt16) (slots : List Nat) :
    (id, slots) ∈ t.byId ↔ slots ≠ [] ∧ slots = (l.filter (·.query.id = id)).map (·.token.index) := by
  rw [mem_iff_lookup hkeyed.byId, h.byId, listed?_eq_some_iff]

/-- The indexes of a table that represents a list lead to its entries and to nothing else, if no key and no id has two records. -/
theorem indexed (h : t.Represents l) (hkeyed : t.Keyed) : t.Indexed where
  keys_nodup := hkeyed.byKey
  byKey := by
    intro key i
    rw [mem_iff_lookup hkeyed.byKey, h.byKey, Option.map_eq_some_iff,
      ← h.exists_mem_iff i fun e => (e.query.id, e.query.server) = key]
    constructor
    · rintro ⟨r, hf, hi⟩
      have hkey := List.find?_some hf
      exact ⟨r, List.mem_of_find?_eq_some hf, of_decide_eq_true hkey, hi⟩
    · rintro ⟨r, hr, rfl, hi⟩
      exact ⟨r, h.find?_key hr, hi⟩
  ids_nodup := hkeyed.byId
  ids := by
    intro id
    constructor
    · rintro ⟨slots, hm⟩
      obtain ⟨hne, rfl⟩ := (h.mem_byId_iff hkeyed id slots).1 hm
      obtain ⟨i, hi⟩ := List.exists_mem_of_ne_nil _ hne
      exact ⟨i, (h.mem_slots_iff id i).1 hi⟩
    · rintro ⟨i, hi⟩
      exact ⟨_, (h.mem_byId_iff hkeyed id _).2 ⟨List.ne_nil_of_mem ((h.mem_slots_iff id i).2 hi), rfl⟩⟩
  byId := by
    intro id slots hm i
    obtain ⟨-, rfl⟩ := (h.mem_byId_iff hkeyed id slots).1 hm
    exact h.mem_slots_iff id i
  slots_nodup := by
    intro id slots hm
    obtain ⟨hne, rfl⟩ := (h.mem_byId_iff hkeyed id slots).1 hm
    refine ⟨hne, (h.nodup.filter _).map_on fun a ha b hb he => ?_⟩
    exact h.eq_of_index (List.mem_filter.1 ha).1 (List.mem_filter.1 hb).1 he
  sorted := by
    intro id slots hm
    obtain ⟨-, rfl⟩ := (h.mem_byId_iff hkeyed id slots).1 hm
    refine List.pairwise_map.2 ((h.sorted.filter _).imp_of_mem fun {x y} hx hy hxy a b ha hb => ?_)
    rw [h.get?_of_mem (List.mem_filter.1 hx).1] at ha
    rw [h.get?_of_mem (List.mem_filter.1 hy).1] at hb
    cases ha
    cases hb
    exact hxy
  canonical := fun i e he => h.canonical _ ((h.holds i e).1 he)
  serials := fun i j a b ha hb hab =>
    congrArg (·.token.index) (h.eq_of_serial ((h.holds i a).1 ha) ((h.holds j b).1 hb) hab)
  fresh := fun i e he => h.fresh _ ((h.holds i e).1 he)
  size := by
    rw [h.size, indexesWhere_eq, List.length_map, List.filter_eq_self.2 fun _ _ => rfl, h.registrations_perm.length_eq]
  bounded := by
    rw [h.size]
    exact h.bounded

end Represents

/-! ## Slots that are taken to hold an entry -/

/-- Looks up as `lookup` does, and takes it that the slot it is led to holds an entry: `none` if that is empty. -/
def lookupHeld? (t : PendingTable P) (id : UInt16) (source : Endpoint) : Option (Option (Token × PendingQuery)) :=
  match t.slotFor? id source with
  | none => some none
  | some index => (t.entries.get? index).map fun entry => some (⟨index, entry.serial⟩, entry.query)

/-- Clears as `clear` does, and takes it that the slot it takes out holds an entry. -/
def clearHeld? (t : PendingTable P) (token : Token) : Option (Option ((PendingQuery × P) × PendingTable P)) :=
  match t.entries.get? token.index with
  | some entry => if entry.serial = token.serial then (t.remove token.index).map some else some none
  | none => some none

/-- Takes the entries in the given slots out as `removeAll` does, and takes it that each slot holds one when its turn comes. -/
def removeAllHeld? (t : PendingTable P) : List Nat → Option (List (PendingQuery × P) × PendingTable P)
  | [] => some ([], t)
  | i :: is =>
    match t.remove i with
    | some (gone, t) => (t.removeAllHeld? is).map fun left => (gone :: left.1, left.2)
    | none => none

/-- The slots of the queries that were sent at least `maxAge` before `now`. -/
def expiredSlots (t : PendingTable P) (now maxAge : Nat) : List Nat :=
  t.entries.indexesWhere fun entry => maxAge ≤ now - entry.query.sentAt

/-- A table answers a call as `answer` does, and takes it that every slot it is led to holds an entry: `none` if one is empty. -/
def answerHeld? (t : PendingTable P) : TableCall P → Option (TableAnswer P × PendingTable P)
  | .lookup id source => (t.lookupHeld? id source).map fun claimed => (.found claimed, t)
  | .clear token => (t.clearHeld? token).map fun
    | some (gone, t) => (.cleared (some gone), t)
    | none => (.cleared none, t)
  | .purge now maxAge => (t.removeAllHeld? (t.expiredSlots now maxAge)).map fun left => (.purged left.1, left.2)
  | .register query payload => some (t.answer (.register query payload))
  | .size => some (t.answer .size)
  | .isEmpty => some (t.answer .isEmpty)

/-- Clearing looks whether the slot holds an entry before it takes it out. -/
theorem clearHeld?_eq (t : PendingTable P) (token : Token) : t.clearHeld? token = some (t.clear token) := by
  rw [clearHeld?, clear]
  cases hg : t.entries.get? token.index with
  | none => rfl
  | some entry =>
    dsimp only
    split
    · rw [remove, hg]
      rfl
    · rfl

/-- No more entries are taken out than slots are given. -/
theorem length_removeAll_le (t : PendingTable P) (slots : List Nat) : (t.removeAll slots).1.length ≤ slots.length := by
  induction slots generalizing t with
  | nil => exact Nat.le_refl 0
  | cons i is ih =>
    rw [removeAll]
    split
    · exact Nat.succ_le_succ (ih _)
    · exact Nat.le_succ_of_le (ih t)

/-- If as many are taken out, each slot held an entry when its turn came. -/
theorem removeAllHeld?_of_length {t : PendingTable P} {slots : List Nat}
    (h : (t.removeAll slots).1.length = slots.length) : t.removeAllHeld? slots = some (t.removeAll slots) := by
  induction slots generalizing t with
  | nil => rfl
  | cons i is ih =>
    cases hr : t.remove i with
    | none =>
      -- nothing is handed out for an empty slot, and the slots behind it cannot make up for that
      have hall : t.removeAll (i :: is) = t.removeAll is := by rw [removeAll, hr]
      rw [hall] at h
      exact absurd h (Nat.ne_of_lt (Nat.lt_succ_of_le (t.length_removeAll_le is)))
    | some left =>
      have hall : t.removeAll (i :: is) = (left.1 :: (left.2.removeAll is).1, (left.2.removeAll is).2) := by
        rw [removeAll, hr]
      rw [hall] at h ⊢
      rw [removeAllHeld?, hr]
      exact congrArg (Option.map _) (ih (Nat.succ.inj h))

namespace Represents

variable {t : PendingTable P} {l : List (Registration P)}

/-- The slot that looking up is led to holds an entry. -/
theorem lookupHeld?_eq (h : t.Represents l) (id : UInt16) (source : Endpoint) :
    t.lookupHeld? id source = some (t.lookup id source) := by
  rw [lookupHeld?, lookup, h.slotFor?_eq]
  cases hf : (l.find? (·.key = (id, source.canonical))).or (l.find? (·.query.id = id)) with
  | none => rfl
  | some r => simp [h.get?_of_mem (mem_of_claimed hf)]

/-- The slots of expired queries hold them until their turn comes. -/
theorem removeAllHeld?_eq (h : t.Represents l) (now maxAge : Nat) :
    t.removeAllHeld? (t.expiredSlots now maxAge) = some (t.purge now maxAge) := by
  refine removeAllHeld?_of_length ?_
  have hgone : (t.registrations.filter (·.query.expired now maxAge)).Sublist t.registrations := List.filter_sublist
  obtain ⟨t', he, -⟩ := h.removeAll_sublist hgone
  rw [expiredSlots, indexesWhere_expired, he, List.length_map, List.length_map]

/-- Wherever a table that represents a list is led to a slot, the slot holds an entry. -/
theorem answerHeld?_eq (h : t.Represents l) (call : TableCall P) : t.answerHeld? call = some (t.answer call) := by
  cases call with
  | register query payload => rfl
  | lookup id source =>
    rw [answerHeld?, h.lookupHeld?_eq]
    rfl
  | clear token =>
    rw [answerHeld?, clearHeld?_eq, answer]
    cases t.clear token <;> rfl
  | purge now maxAge =>
    rw [answerHeld?, h.removeAllHeld?_eq]
    rfl
  | size => rfl
  | isEmpty => rfl

/-- After some of the expired queries were taken out, from the lowest slot on, the table represents what is left of the list. -/
theorem removeAll_take (h : t.Represents l) (now maxAge n : Nat) :
    ∃ left, (t.removeAll ((t.expiredSlots now maxAge).take n)).2.Represents left := by
  have hgone : ((t.registrations.filter (·.query.expired now maxAge)).take n).Sublist t.registrations :=
    (List.take_sublist _ _).trans List.filter_sublist
  obtain ⟨t', he, -, -, hleft⟩ := h.removeAll_sublist hgone
  rw [expiredSlots, indexesWhere_expired, ← List.map_take, he]
  exact ⟨_, hleft⟩

end Represents

/-! ## Many calls -/

/-- The call of number `m` registered the entry in slot `i`. -/
def RegisteredAt (t : PendingTable P) (calls : List (TableCall P)) (m i : Nat) (e : PendingEntry P) : Prop :=
  (∃ query, calls[m]? = some (.register query e.payload) ∧ query.kept = e.query) ∧
    (transcript answer t calls).1[m]? = some (.registered ⟨i, e.serial⟩)

section Calls

variable {t : PendingTable P} {calls : List (TableCall P)}

/-- What a table holds after several calls was registered by one of them, if it held nothing before. -/
theorem Represents.exists_registeredAt (h : t.Represents t.live) (hnone : t.live = []) {k i : Nat} {e : PendingEntry P}
    (he : (stateAt answer t calls k).entries.get? i = some e) : ∃ m < k, t.RegisteredAt calls m i e := by
  have hhistory := h.history calls
  have hr : e.registration i ∈ (stateAt answer t calls k).live := ((hhistory.represents_at k).holds i e).1 he
  rcases hhistory.mem_or_added hr with hinit | ⟨m, hm, hadds⟩
  · rw [stateAt_zero, hnone] at hinit
    cases hinit
  · exact ⟨m, hm, h.registered_of_adds hadds⟩

/-- Of two registrations the one with the lower number was made by the earlier call. -/
theorem Represents.lt_of_serial_lt (h : t.Represents t.live) {m n i j : Nat} {a b : PendingEntry P}
    (ha : t.RegisteredAt calls m i a) (hb : t.RegisteredAt calls n j b) (hab : a.serial < b.serial) : m < n := by
  obtain ⟨_, _, -, hfirst⟩ := h.adds_of_registered ha.2
  obtain ⟨_, _, -, hsecond⟩ := h.adds_of_registered hb.2
  rcases Nat.lt_trichotomy m n with hlt | rfl | hgt
  · exact hlt
  · have htoken := ha.2.symm.trans hb.2
    rw [Option.some.injEq, TableAnswer.registered.injEq, Token.mk.injEq] at htoken
    exact absurd htoken.2 (Nat.ne_of_lt hab)
  · exact absurd ((h.history calls).serial_lt hgt hsecond hfirst) (Nat.lt_asymm hab)

end Calls

/-- The indexes of a table, at every moment and also amid a purge. Both lead to the entries and to nothing else; servers are
canonical, which `Endpoint.alike_iff` and `Endpoint.canonical_ne_mapped` pin down. Every entry was registered in its slot by
an earlier call, the slots of an id are in the order of these calls, and no call meets an empty slot where it takes an entry
to be. -/
theorem indexes_exact (capacity : Nat) (calls : List (TableCall P)) (k : Nat) :
    let start : PendingTable P := empty capacity
    let table := stateAt answer start calls k
    table.Indexed ∧ table.capacity = capacity ∧
    (∀ i e, table.entries.get? i = some e → ∃ m < k, start.RegisteredAt calls m i e) ∧
    (∀ id slots, (id, slots) ∈ table.byId → slots.Pairwise fun i j => ∀ a b, table.entries.get? i = some a →
      table.entries.get? j = some b → ∀ m n, start.RegisteredAt calls m i a → start.RegisteredAt calls n j b → m < n) ∧
    (∀ call, table.answerHeld? call = some (table.answer call)) ∧
    ∀ now maxAge n, (table.removeAll ((table.expiredSlots now maxAge).take n)).2.Indexed := by
  intro start table
  have hempty : start.live = [] := (represents_empty capacity).live_eq
  have hstart : start.Represents start.live := by
    rw [hempty]
    exact represents_empty capacity
  have hrepresents : table.Represents table.live := (hstart.history calls).represents_at k
  have hkeyed : table.Keyed :=
    stateAt_induction (P := Keyed) (fun _ call h => h.answer call) (Nat.zero_le k) (keyed_empty capacity)
  have hcapacity : table.capacity = capacity :=
    stateAt_induction (P := fun t : PendingTable P => t.capacity = capacity) (fun t call h => (t.capacity_answer call).trans h)
      (Nat.zero_le k) rfl
  have hindexed := hrepresents.indexed hkeyed
  refine ⟨hindexed, hcapacity, fun i e he => hstart.exists_registeredAt hempty he, ?_, hrepresents.answerHeld?_eq, ?_⟩
  · intro id slots hm
    refine (hindexed.sorted id slots hm).imp fun hab a b ha hb m n hma hnb => ?_
    exact hstart.lt_of_serial_lt hma hnb (hab a b ha hb)
  · intro now maxAge n
    obtain ⟨left, hleft⟩ := hrepresents.removeAll_take now maxAge n
    exact hleft.indexed (hkeyed.removeAll _)

end PendingTable

end DnsRelay

import DnsRelay.Address.Basic

/-!
# The forms of an address

The address of a host of the older family has two forms: it can be written as it is, or mapped. Endpoints are alike if they are one
endpoint in one of its forms each (`Endpoint.Alike`); they are alike iff they have the same canonical form (`Endpoint.alike_iff`),
which is never mapped.
-/

namespace DnsRelay

namespace Address

/-- A word of 128 bits is unmapped to the 32 bits that it is the mapped form of. -/
theorem unmapped?_eq_some_iff (bits : BitVec 128) (inner : BitVec 32) :
    unmapped? bits = some inner ↔ bits = mapped inner := by
  rw [unmapped?, Option.ite_none_right_eq_some, Option.some.injEq]
  constructor
  · rintro ⟨hmark, rfl⟩
    have hjoin : bits.extractLsb' 32 96 ++ bits.extractLsb' 0 32 = bits :=
      @BitVec.extractLsb'_append_extractLsb' 96 32 bits
    rw [mapped, ← hmark, hjoin]
  · rintro rfl
    exact ⟨BitVec.extractLsb'_append_eq_left, BitVec.extractLsb'_append_eq_right⟩

end Address

namespace Endpoint

/-- The forms of a service on a host of the older family: the address is written as it is, or mapped, with some flow label
and in some zone. -/
inductive Writes (bits : BitVec 32) (number : UInt16) : Endpoint → Prop where
  | plain : Writes bits number (.v4 bits number)
  | mapped (flow scope : UInt32) : Writes bits number (.v6 (Address.mapped bits) flow scope number)

/-- Two endpoints are the same, or forms of the same service on a host of the older family. -/
inductive Alike : Endpoint → Endpoint → Prop where
  | same (e : Endpoint) : Alike e e
  | forms {bits : BitVec 32} {number : UInt16} {a b : Endpoint} : Writes bits number a → Writes bits number b → Alike a b

/-- An endpoint is a form of a service on a host of the older family iff this is its canonical form. -/
theorem writes_iff (bits : BitVec 32) (number : UInt16) (e : Endpoint) :
    Writes bits number e ↔ e.canonical = .v4 bits number := by
  constructor
  · intro h
    cases h with
    | plain => rfl
    | mapped flow scope => rw [canonical, (Address.unmapped?_eq_some_iff _ _).2 rfl]
  · intro h
    cases e with
    | v4 bits' number' =>
      cases h
      exact .plain
    | v6 wide flow scope number' =>
      rw [canonical] at h
      split at h
      · rename_i inner hinner
        cases h
        obtain rfl := (Address.unmapped?_eq_some_iff _ _).1 hinner
        exact .mapped flow scope
      · cases h

/-- The canonical form of an endpoint is a form of a service on a host of the older family, or the endpoint itself. -/
theorem canonical_cases (e : Endpoint) : (∃ bits number, e.canonical = .v4 bits number) ∨ e.canonical = e := by
  cases e with
  | v4 bits number => exact Or.inr rfl
  | v6 wide flow scope number =>
    cases hinner : Address.unmapped? wide with
    | some inner => exact Or.inl ⟨inner, number, by rw [canonical, hinner]⟩
    | none => exact Or.inr (by rw [canonical, hinner])

/-- Endpoints are alike iff they have the same canonical form. -/
theorem alike_iff (a b : Endpoint) : a.Alike b ↔ a.canonical = b.canonical := by
  constructor
  · intro h
    cases h with
    | same => rfl
    | forms ha hb => rw [(writes_iff _ _ _).1 ha, (writes_iff _ _ _).1 hb]
  · intro h
    rcases a.canonical_cases with ⟨bits, number, ha⟩ | ha
    · exact .forms ((writes_iff _ _ _).2 ha) ((writes_iff _ _ _).2 (h.symm.trans ha))
    · rcases b.canonical_cases with ⟨bits, number, hb⟩ | hb
      · exact .forms ((writes_iff _ _ _).2 (h.trans hb)) ((writes_iff _ _ _).2 hb)
      · rw [ha, hb] at h
        exact h ▸ .same a

/-- The canonical form of an endpoint is canonical. -/
theorem canonical_canonical (e : Endpoint) : e.canonical.canonical = e.canonical := by
  rcases e.canonical_cases with ⟨bits, number, h⟩ | h
  · rw [h, canonical]
  · rw [h, h]

/-- An endpoint is alike to its canonical form. -/
theorem alike_canonical (e : Endpoint) : e.Alike e.canonical :=
  (alike_iff _ _).2 e.canonical_canonical.symm

/-- The canonical form of an endpoint is not mapped. -/
theorem canonical_ne_mapped (e : Endpoint) (bits : BitVec 32) (flow scope : UInt32) (number : UInt16) :
    e.canonical ≠ .v6 (Address.mapped bits) flow scope number := by
  intro h
  have hcanonical := e.canonical_canonical
  rw [h, (writes_iff bits number _).1 (.mapped flow scope)] at hcanonical
  cases hcanonical

end Endpoint

end DnsRelay

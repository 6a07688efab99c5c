import Accumulator.SymbolTable

/-!
# Symbol tables

A table that grew out of an empty one by declarations is `Sound`: its addresses were handed out
upward from the first data address, none of them twice, and never past the end of memory.
`declare_eq_ok_iff` says when a declaration succeeds and what it makes of the table,
`address?_of_declare` how the addresses of all names change, and `Sound.declare` that soundness is
kept.

A name that is declared again leaves its old address unused, so a table may have handed out more
addresses than it has names.  The address handed out last is in use all the same
(`latest_of_declare`).
-/

namespace Accumulator

namespace SymbolTable

variable {t u : SymbolTable} {name : String}

/-- A declaration succeeds if the next address is still within memory. -/
theorem declare_eq_ok_iff :
    t.declare name = .ok u ↔ t.next < t.memorySize ∧
      u = { t with next := t.next + 1, bindings := t.bindings.insert name t.next } := by
  unfold declare
  split
  · next hfull =>
    constructor
    · intro h
      cases h
    · rintro ⟨hroom, -⟩
      omega
  · next hroom =>
    constructor
    · intro h
      cases h
      exact ⟨by omega, rfl⟩
    · rintro ⟨-, rfl⟩
      rfl

/-- A declaration gives the name the next address and leaves every other name its own. -/
theorem address?_of_declare (h : t.declare name = .ok u) (other : String) :
    u.address? other = if other = name then some t.next else t.address? other := by
  obtain ⟨-, rfl⟩ := declare_eq_ok_iff.1 h
  exact t.bindings.get?_insert name other t.next

theorem resolve_eq_ok_iff {address : Int} :
    t.resolve name = .ok address ↔ t.address? name = some address := by
  unfold resolve
  cases t.address? name with
  | none => simp
  | some bound => simp

/-- What holds of a table whose names were all declared in it, one after another. -/
structure Sound (t : SymbolTable) : Prop where
  dataStart_le : t.dataStart ≤ t.next
  next_le : t.next ≤ max t.dataStart t.memorySize
  within : ∀ name address, t.address? name = some address →
    t.dataStart ≤ address ∧ address < t.next
  distinct : ∀ name other address, t.address? name = some address →
    t.address? other = some address → name = other

theorem Sound.new (dataStart memorySize : Int) : (new dataStart memorySize).Sound where
  dataStart_le := Int.le_refl _
  next_le := Int.le_max_left _ _
  within := by
    intro name address h
    cases h
  distinct := by
    intro name other address h
    cases h

/-- **Addresses are handed out upward, once each and within memory.** -/
theorem Sound.declare (ht : t.Sound) (h : t.declare name = .ok u) : u.Sound := by
  have haddress := address?_of_declare h
  have hwithin : ∀ other address, t.address? other = some address → address ≠ t.next :=
    fun other address hother => Int.ne_of_lt (ht.within other address hother).2
  have hle := ht.dataStart_le
  obtain ⟨hroom, rfl⟩ := declare_eq_ok_iff.1 h
  constructor
  · dsimp only
    omega
  · dsimp only
    omega
  · intro other address hother
    rw [haddress] at hother
    dsimp only
    split at hother
    · obtain rfl := Option.some.inj hother
      omega
    · have := ht.within other address hother
      omega
  · intro first second address hfirst hsecond
    rw [haddress] at hfirst hsecond
    -- the new address belongs to no other name
    split at hfirst
    · next heq =>
      obtain rfl := Option.some.inj hfirst
      split at hsecond
      · next heq' => rw [heq, heq']
      · exact absurd rfl (hwithin second _ hsecond)
    · split at hsecond
      · obtain rfl := Option.some.inj hsecond
        exact absurd rfl (hwithin first _ hfirst)
      · exact ht.distinct first second address hfirst hsecond

/-- Whether the address handed out last is that of a name: a table that is not empty has never lost
the name declared last. -/
def Latest (t : SymbolTable) : Prop :=
  t.bindings = .empty ∧ t.next = t.dataStart ∨ ∃ name, t.address? name = some (t.next - 1)

/-- A declaration binds the name to the address handed out last. -/
theorem latest_of_declare (h : t.declare name = .ok u) : u.Latest := by
  have haddress := address?_of_declare h name
  obtain ⟨-, rfl⟩ := declare_eq_ok_iff.1 h
  refine Or.inr ⟨name, ?_⟩
  rw [haddress, if_pos rfl, Int.add_sub_cancel]

end SymbolTable

end Accumulator

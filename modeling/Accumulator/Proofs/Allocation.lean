import Accumulator.Proofs.Refusal
import Accumulator.Proofs.SymbolTable

/-!
# Allocation

A symbol table is asked to declare names and to be reset (`Call`).  Its `grants` are the names that
were declared since the last reset, each with the address that was handed out for it, in this order.

The grants say all there is to know about a table (`Follows`).  The address handed out next follows
from their number, the address of a name is the one it was granted last (`LastGranted`), and the
names are listed in the order in which they were granted first.  A declaration adds a grant or is
refused, and a reset takes all grants back (`Follows.respond`), so that this holds after any
sequence of calls (`allocates_upward`).
-/

namespace Accumulator.SymbolTable

variable {t u : SymbolTable} {granted : List (String × Int)} {name other : String}
  {address fresh : Int}

/-! ### Calls -/

/-- What can be asked of a table. -/
inductive Call
  | declare (name : String)
  | reset

/-- What a call comes to: the table behind it and the address that it hands out, if any. -/
def respond (t : SymbolTable) : Call → SymbolTable × Except Failure (Option Int)
  | .declare name =>
    match t.declare name with
    | .error failure => (t, .error failure)
    | .ok declared => (declared, .ok (some t.next))
  | .reset => (t.reset, .ok none)

/-- The table after a sequence of calls. -/
def undergo (t : SymbolTable) (calls : List Call) : SymbolTable :=
  calls.foldl (fun t call => (t.respond call).1) t

/-- The grants behind a call that was answered so, `granted` before it. -/
def Call.record (granted : List (String × Int)) (answer : Except Failure (Option Int)) :
    Call → List (String × Int)
  | declare name =>
    match answer with
    | .ok (some address) => granted ++ [(name, address)]
    | _ => granted
  | reset => []

/-- The grants behind a sequence of calls, `granted` before it: the names that were declared since
the last reset, with their addresses. -/
def grants (t : SymbolTable) (granted : List (String × Int)) : List Call → List (String × Int)
  | [] => granted
  | call :: calls => (t.respond call).1.grants (call.record granted (t.respond call).2) calls

/-- A declaration is granted the next address as long as that is within memory. -/
theorem respond_declare_of_lt (h : t.next < t.memorySize) (name : String) :
    ∃ declared, t.declare name = .ok declared ∧
      t.respond (.declare name) = (declared, .ok (some t.next)) := by
  have hdeclare : t.declare name = .ok _ := declare_eq_ok_iff.2 ⟨h, rfl⟩
  exact ⟨_, hdeclare, by rw [respond, hdeclare]⟩

/-- Any other declaration is refused and leaves the table as it was. -/
theorem respond_declare_of_le (h : t.memorySize ≤ t.next) (name : String) :
    t.respond (.declare name) =
      (t, .error (.ofCause (.dataMemoryFull name (t.next - t.dataStart)))) := by
  rw [respond, declare, if_pos h]

/-! ### Grants -/

/-- Whether an address is the one that a name was granted last. -/
def LastGranted (granted : List (String × Int)) (name : String) (address : Int) : Prop :=
  ∃ before after, granted = before ++ (name, address) :: after ∧ name ∉ after.map Prod.fst

theorem not_lastGranted_nil : ¬ LastGranted [] name address := by
  rintro ⟨before, after, h, -⟩
  exact List.append_ne_nil_of_right_ne_nil before (List.cons_ne_nil _ after) h.symm

/-- A new grant is the last one of its name, and changes nothing for the other names. -/
theorem lastGranted_append_singleton :
    LastGranted (granted ++ [(name, fresh)]) other address ↔
      if other = name then fresh = address else LastGranted granted other address := by
  constructor
  · rintro ⟨before, after, h, hafter⟩
    rcases List.eq_nil_or_concat after with rfl | ⟨init, last, rfl⟩
    · obtain ⟨-, hlast⟩ := List.append_singleton_inj.1 h
      cases hlast
      rw [if_pos rfl]
    · rw [List.concat_eq_append] at h hafter
      rw [← List.cons_append, ← List.append_assoc] at h
      obtain ⟨rfl, rfl⟩ := List.append_singleton_inj.1 h
      simp only [List.map_append, List.mem_append, List.map_cons, List.map_nil,
        List.mem_singleton, not_or] at hafter
      rw [if_neg hafter.2]
      exact ⟨before, init, rfl, hafter.1⟩
  · split
    · next heq =>
      rintro rfl
      exact ⟨granted, [], by rw [heq], by simp⟩
    · next hne =>
      rintro ⟨before, after, rfl, hafter⟩
      refine ⟨before, after ++ [(name, fresh)], by simp, ?_⟩
      simpa [hne] using hafter

/-- A name that is seen again keeps its place in the order of first appearance, and a new one goes
to the end. -/
theorem eraseDups_append_singleton (names : List String) (name : String) :
    (names ++ [name]).eraseDups =
      if name ∈ names.eraseDups then names.eraseDups else names.eraseDups ++ [name] := by
  rw [List.eraseDups_append, List.removeAll]
  by_cases h : name ∈ names
  · simp [h]
  · simp [h, List.eraseDups_cons]

/-- What the grants say of a table. -/
structure Follows (t : SymbolTable) (granted : List (String × Int)) : Prop where
  sound : t.Sound
  next_eq : t.next = t.dataStart + granted.length
  increasing : (granted.map Prod.snd).Pairwise (· < ·)
  below : ∀ address ∈ granted.map Prod.snd, address < t.next
  address?_iff : ∀ name address, t.address? name = some address ↔ LastGranted granted name address
  keys_eq : t.bindings.keys = (granted.map Prod.fst).eraseDups

theorem Follows.new (dataStart memorySize : Int) : (new dataStart memorySize).Follows [] where
  sound := .new dataStart memorySize
  next_eq := (Int.add_zero dataStart).symm
  increasing := .nil
  below := by simp
  address?_iff := by
    intro name address
    refine ⟨fun h => ?_, fun h => absurd h not_lastGranted_nil⟩
    cases h
  keys_eq := rfl

/-- **A declaration that succeeds is a grant of the next address.** -/
theorem Follows.declare (ht : t.Follows granted) (h : t.declare name = .ok u) :
    u.Follows (granted ++ [(name, t.next)]) := by
  have haddress := address?_of_declare h
  have hsound := ht.sound.declare h
  have hnext := ht.next_eq
  obtain ⟨-, rfl⟩ := declare_eq_ok_iff.1 h
  refine ⟨hsound, ?_, ?_, ?_, ?_, ?_⟩
  · simp only [List.length_append, List.length_singleton]
    omega
  · rw [List.map_append, List.pairwise_append]
    refine ⟨ht.increasing, List.pairwise_singleton .., fun address haddress last hlast => ?_⟩
    rw [List.mem_singleton.1 hlast]
    exact ht.below address haddress
  · simp only [List.map_append, List.forall_mem_append, List.map_cons, List.map_nil,
      List.forall_mem_singleton]
    exact ⟨fun address haddress => Int.lt_trans (ht.below address haddress) (Int.lt_succ _),
      Int.lt_succ _⟩
  · intro other address
    rw [haddress, lastGranted_append_singleton]
    split
    · exact Option.some_inj
    · exact ht.address?_iff other address
  · rw [OrderedMap.keys_insert, ht.keys_eq, List.map_append, List.map_singleton,
      eraseDups_append_singleton]

/-- A call keeps the grants in step with the table. -/
theorem Follows.respond (ht : t.Follows granted) (call : Call) :
    (t.respond call).1.Follows (call.record granted (t.respond call).2) ∧
      (t.respond call).1.dataStart = t.dataStart ∧
      (t.respond call).1.memorySize = t.memorySize := by
  cases call with
  | declare name =>
    by_cases h : t.next < t.memorySize
    · obtain ⟨declared, hdeclare, hrespond⟩ := respond_declare_of_lt h name
      have hfollows := ht.declare hdeclare
      rw [hrespond]
      obtain ⟨-, rfl⟩ := declare_eq_ok_iff.1 hdeclare
      exact ⟨hfollows, rfl, rfl⟩
    · rw [respond_declare_of_le (Int.not_lt.1 h)]
      exact ⟨ht, rfl, rfl⟩
  | reset => exact ⟨.new t.dataStart t.memorySize, rfl, rfl⟩

/-- A sequence of calls keeps the grants in step with the table. -/
theorem Follows.undergo (ht : t.Follows granted) (calls : List Call) :
    (t.undergo calls).Follows (t.grants granted calls) ∧
      (t.undergo calls).dataStart = t.dataStart ∧
      (t.undergo calls).memorySize = t.memorySize := by
  induction calls generalizing t granted with
  | nil => exact ⟨ht, rfl, rfl⟩
  | cons call calls ih =>
    obtain ⟨hfollows, hstart, hsize⟩ := ht.respond call
    obtain ⟨hcalls, hstart', hsize'⟩ := ih hfollows
    exact ⟨hcalls, hstart'.trans hstart, hsize'.trans hsize⟩

/-! ### What a table answers -/

/-- A name is unknown if it was granted no address. -/
theorem Follows.resolve_eq_error_iff (ht : t.Follows granted) :
    t.resolve name = .error (.fault { cause := .unknownSymbol name }) ↔
      name ∉ granted.map Prod.fst := by
  have hunbound : t.resolve name = .error (.fault { cause := .unknownSymbol name }) ↔
      t.address? name = none := Core.resolve_eq_error_iff.trans (and_iff_left rfl)
  rw [hunbound, address?, OrderedMap.get?_eq_none_iff, ht.keys_eq, List.mem_eraseDups]

/-- The address of a name is within memory. -/
theorem Sound.lt_memorySize (ht : t.Sound) (h : t.address? name = some address) :
    address < t.memorySize := by
  have hwithin := ht.within name address h
  have hnext := ht.next_le
  omega

/-- **A symbol table hands out addresses upward, each of them once.**  After any sequence of calls,
the next address is as far from the first one as there were declarations since the last reset.  A
declaration is granted this address if it is within memory, and otherwise refused without changing
the table, for want of data memory (as long as the number of declarations, which the message gives,
is not too long to be written).  The addresses that were granted since the last reset increase
strictly.  Those of the names are pairwise distinct, and lie between the first address and the next
one and within memory.  A name has the address that it was granted last, and is unknown exactly if
it was granted none.  The table lists the names in the order of their first declarations, each once
and with its address. -/
theorem allocates_upward (dataStart memorySize : Int) (calls : List Call) :
    let t := (new dataStart memorySize).undergo calls
    let granted := (new dataStart memorySize).grants [] calls
    t.next = dataStart + granted.length ∧
    (t.next < memorySize → ∀ name,
      ∃ declared, t.respond (.declare name) = (declared, .ok (some t.next))) ∧
    (memorySize ≤ t.next → ∀ name,
      ∃ cause : Cause, cause.kind = .addressSpaceExhausted ∧
        t.respond (.declare name) = (t, .error (.ofCause cause)) ∧
        (Numeral.fits granted.length → Failure.ofCause cause = .fault { cause })) ∧
    (granted.map Prod.snd).Pairwise (· < ·) ∧
    (∀ name other address,
      t.resolve name = .ok address → t.resolve other = .ok address → name = other) ∧
    (∀ name address, t.resolve name = .ok address →
      dataStart ≤ address ∧ address < t.next ∧ address < memorySize) ∧
    (∀ name address, t.resolve name = .ok address ↔ LastGranted granted name address) ∧
    (∀ name, t.resolve name = .error (.fault { cause := .unknownSymbol name }) ↔
      name ∉ granted.map Prod.fst) ∧
    t.bindings.keys = (granted.map Prod.fst).eraseDups ∧
    ∀ name address, (name, address) ∈ t.bindings.toList ↔ t.resolve name = .ok address := by
  intro t granted
  obtain ⟨ht, hstart, hsize⟩ : t.Follows granted ∧ t.dataStart = dataStart ∧
      t.memorySize = memorySize := (Follows.new dataStart memorySize).undergo calls
  have hnext := ht.next_eq
  rw [hstart] at hnext
  refine ⟨hnext, fun hroom name => ?_, fun hfull name => ?_, ht.increasing, ?_, ?_, ?_,
    fun name => ht.resolve_eq_error_iff, ht.keys_eq, fun name address => ?_⟩
  · obtain ⟨declared, -, hrespond⟩ := respond_declare_of_lt (hsize.symm ▸ hroom) name
    exact ⟨declared, hrespond⟩
  · have hcount : t.next - t.dataStart = granted.length := by omega
    refine ⟨_, rfl, respond_declare_of_le (hsize.symm ▸ hfull) name, fun hfits => ?_⟩
    refine Failure.ofCause_of_fits fun n hn => ?_
    obtain rfl : n = t.next - t.dataStart := by simpa [Cause.numerals] using hn
    exact hcount.symm ▸ hfits
  · intro name other address hname hother
    exact ht.sound.distinct name other address (resolve_eq_ok_iff.1 hname)
      (resolve_eq_ok_iff.1 hother)
  · intro name address hname
    have haddress := resolve_eq_ok_iff.1 hname
    obtain ⟨hge, hlt⟩ := ht.sound.within name address haddress
    exact ⟨hstart ▸ hge, hlt, hsize ▸ ht.sound.lt_memorySize haddress⟩
  · intro name address
    rw [resolve_eq_ok_iff]
    exact ht.address?_iff name address
  · rw [resolve_eq_ok_iff, address?, OrderedMap.get?_eq_some_iff]

-- a declaration beyond memory is no grant, and one of a known name is
example : (new 0 2).grants [] [.declare "x", .declare "x", .declare "y"] =
    [("x", 0), ("x", 1)] := by decide +kernel

end Accumulator.SymbolTable

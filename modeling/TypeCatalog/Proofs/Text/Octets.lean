import Mathlib.Algebra.Group.Nat.Defs
import TypeCatalog.Text.Utf8

/-!
# The octets of a character

A character is written with one to four octets. Read from the first one on, they give the character
back, whatever comes next; if they end too soon, one replacement character stands for them; and an
octet that is not the first one cannot begin a character, so it is replaced by itself.

## Main definitions

- `Utf8.Pending.Completes` — octets that complete a character that has begun
- `Utf8.Spells` — octets that are a character
- `Utf8.octetsOf` — the octets of several characters

## Main statements

- `Utf8.spells_utf8EncodeChar` — the octets that a character is written with are that character
- `Utf8.Spells.decodeLossyFrom_append`, `Utf8.Spells.decodeLossyFrom_take`,
  `Utf8.Spells.decodeLossyFrom_drop` — what is read of a whole character and of one that is cut
- `Utf8.decodeLossy_encode` — a text is read back from its octets
-/

namespace TypeCatalog.Text.Utf8

/-- The octets complete the character that has begun, and no fewer of them do. None of them could
begin a character. -/
inductive Pending.Completes : Pending → List UInt8 → Char → Prop where
  | last {p : Pending} {octet : UInt8} {c : Char} (hstart : start octet = .refused)
      (h : p.next octet = .complete c) : Completes p [octet] c
  | more {p q : Pending} {octet : UInt8} {rest : List UInt8} {c : Char}
      (hstart : start octet = .refused) (h : p.next octet = .continued q)
      (hrest : Completes q rest c) : Completes p (octet :: rest) c

/-- The octets are a character. -/
inductive Spells : List UInt8 → Char → Prop where
  | single {octet : UInt8} {c : Char} (h : start octet = .complete c) : Spells [octet] c
  | several {p : Pending} {octet : UInt8} {rest : List UInt8} {c : Char}
      (h : start octet = .continued p) (hrest : p.Completes rest c) : Spells (octet :: rest) c

/-! ### Octets that go on -/

/-- The last octets of a code point, `owed + 1` in number: each holds six of its bits. -/
def tailOctets (value : Nat) : Nat → List UInt8
  | 0 => [UInt8.ofNat (value % 64 + 0x80)]
  | owed + 1 => UInt8.ofNat (value / 64 ^ (owed + 1) % 64 + 0x80) :: tailOctets value owed

theorem toNat_ofNat_tail (n : Nat) : (UInt8.ofNat (n % 64 + 0x80)).toNat = n % 64 + 0x80 := by
  rw [UInt8.toNat_ofNat']
  omega

theorem start_of_tail (n : Nat) : start (UInt8.ofNat (n % 64 + 0x80)) = .refused := by
  have hall : ∀ n < 64, start (UInt8.ofNat (n + 0x80)) = .refused := by decide
  exact hall _ (Nat.mod_lt n (by decide))

/-- The last octets of a code point complete it, if its first bits have been read and the next octet
lies where it has to. -/
theorem completes_tailOctets {taken owed low high value first : Nat}
    (hfirst : first = value / 64 ^ (owed + 1)) (hlow : low ≤ value / 64 ^ owed % 64 + 0x80)
    (hhigh : value / 64 ^ owed % 64 + 0x80 ≤ high) :
    Pending.Completes ⟨taken, owed, low, high, first⟩ (tailOctets value owed)
      (Char.ofNat value) := by
  subst hfirst
  induction owed generalizing taken low high with
  | zero =>
    refine .last (start_of_tail _) ?_
    rw [Nat.pow_zero, Nat.div_one] at hlow hhigh
    have hvalue : value / 64 * 64 + (value % 64 + 0x80 - 0x80) = value := by omega
    simp only [Pending.next, toNat_ofNat_tail]
    rw [if_pos ⟨hlow, hhigh⟩]
    simp only [Nat.zero_add, Nat.pow_one, hvalue]
  | succ owed ih =>
    have hnext := @ih (taken + 1) 0x80 0xBF (by omega) (by omega)
    refine .more (start_of_tail _) ?_ hnext
    have hvalue : value / 64 ^ (owed + 2) * 64 + (value / 64 ^ (owed + 1) % 64 + 0x80 - 0x80) =
        value / 64 ^ (owed + 1) := by
      rw [Nat.pow_succ 64 (owed + 1), ← Nat.div_div_eq_div_mul]
      omega
    simp only [Pending.next, toNat_ofNat_tail]
    rw [if_pos ⟨hlow, hhigh⟩, hvalue]

/-! ### First octets -/

/-- An octet below `0x80` is a character. -/
theorem start_of_one {n : Nat} (h : n < 0x80) :
    start (UInt8.ofNat n) = .complete (Char.ofNat n) := by
  have hoctet : (UInt8.ofNat n).toNat = n := by
    rw [UInt8.toNat_ofNat']
    omega
  simp only [start, hoctet]
  rw [if_pos h]

/-- The first octet of two. -/
theorem start_of_two {n : Nat} (hlow : 2 ≤ n) (hhigh : n < 0x20) :
    start (UInt8.ofNat (n + 0xC0)) = .continued ⟨1, 0, 0x80, 0xBF, n⟩ := by
  have hall : ∀ n < 0x20, 2 ≤ n →
      start (UInt8.ofNat (n + 0xC0)) = .continued ⟨1, 0, 0x80, 0xBF, n⟩ := by decide
  exact hall n hhigh hlow

/-- The octet after the first one has a smaller range where a shorter form or a surrogate would
begin. -/
theorem start_of_three {n : Nat} (h : n < 0x10) :
    start (UInt8.ofNat (n + 0xE0)) =
      .continued ⟨1, 1, if n = 0 then 0xA0 else 0x80, if n = 0xD then 0x9F else 0xBF, n⟩ := by
  revert n
  decide

/-- The octet after the first one has a smaller range where a shorter form would begin, or code
points end. -/
theorem start_of_four {n : Nat} (h : n < 5) :
    start (UInt8.ofNat (n + 0xF0)) =
      .continued ⟨1, 2, if n = 0 then 0x90 else 0x80, if n = 4 then 0x8F else 0xBF, n⟩ := by
  revert n
  decide

/-! ### The octets of one character -/

/-- The octets that a character is written with are that character. -/
theorem spells_utf8EncodeChar (c : Char) : Spells (String.utf8EncodeChar c) c := by
  have hvalid : c.val.toNat < 0xD800 ∨ 0xDFFF < c.val.toNat ∧ c.val.toNat < 0x110000 := c.valid
  have hchar : Char.ofNat c.val.toNat = c := Char.ofNat_toNat c
  rw [String.utf8EncodeChar]
  generalize c.val.toNat = v at hvalid hchar
  subst hchar
  by_cases hone : v ≤ 0x7F
  · rw [if_pos hone]
    exact .single (start_of_one (by omega))
  rw [if_neg hone]
  by_cases htwo : v ≤ 0x7FF
  · rw [if_pos htwo]
    exact .several (start_of_two (by omega) (by omega))
      (@completes_tailOctets 1 0 _ _ v _ (by omega) (by omega) (by omega))
  rw [if_neg htwo]
  by_cases hthree : v ≤ 0xFFFF
  · rw [if_pos hthree]
    refine .several (start_of_three (by omega))
      (@completes_tailOctets 1 1 _ _ v _ (by omega) ?_ ?_) <;> split <;> omega
  · rw [if_neg hthree]
    refine .several (start_of_four (by omega))
      (@completes_tailOctets 1 2 _ _ v _ (by omega) ?_ ?_) <;> split <;> omega

/-! ### Reading them -/

variable {p : Pending} {octets : List UInt8} {c : Char}

/-- Octets that complete a character are read as it, whatever follows. -/
theorem Pending.Completes.decodeLossyFrom_append (h : p.Completes octets c) (rest : List UInt8) :
    decodeLossyFrom (some p) (octets ++ rest) = c :: decodeLossyFrom none rest := by
  induction h with
  | last _ h => simp only [List.singleton_append, decodeLossyFrom, h]
  | more _ h _ ih => simp only [List.cons_append, decodeLossyFrom, h, ih]

/-- Fewer octets than complete a character are read as one replacement. -/
theorem Pending.Completes.decodeLossyFrom_take (h : p.Completes octets c) {n : Nat}
    (hn : n < octets.length) : decodeLossyFrom (some p) (octets.take n) = [replacement] := by
  induction h generalizing n with
  | last =>
    have hzero : n = 0 := Nat.lt_one_iff.1 hn
    rw [hzero]
    rfl
  | more _ h _ ih =>
    cases n with
    | zero => rfl
    | succ n => simp only [List.take_succ_cons, decodeLossyFrom, h, ih (Nat.lt_of_succ_lt_succ hn)]

/-- No octet that completes a character begins one. -/
theorem Pending.Completes.start_eq_refused (h : p.Completes octets c) :
    ∀ octet ∈ octets, start octet = .refused := by
  induction h with
  | last hstart _ => simpa using hstart
  | more hstart _ _ ih => exact List.forall_mem_cons.2 ⟨hstart, ih⟩

/-- The octets of a character are read as this character, whatever follows. -/
theorem Spells.decodeLossyFrom_append (h : Spells octets c) (rest : List UInt8) :
    decodeLossyFrom none (octets ++ rest) = c :: decodeLossyFrom none rest := by
  cases h with
  | single h => simp only [List.singleton_append, decodeLossyFrom, h]
  | several h hrest =>
    simp only [List.cons_append, decodeLossyFrom, h, hrest.decodeLossyFrom_append]

/-- A character that is cut off behind its first octet is read as one replacement character. -/
theorem Spells.decodeLossyFrom_take (h : Spells octets c) {n : Nat} (hpos : 0 < n)
    (hn : n < octets.length) : decodeLossyFrom none (octets.take n) = [replacement] := by
  obtain ⟨n, rfl⟩ := Nat.exists_eq_succ_of_ne_zero (Nat.ne_of_gt hpos)
  cases h with
  | single => exact absurd hn (by simp)
  | several h hrest =>
    simp only [List.take_succ_cons, decodeLossyFrom, h,
      hrest.decodeLossyFrom_take (Nat.lt_of_succ_lt_succ hn)]

/-- No octet of a character but the first one could begin a character. -/
theorem Spells.start_eq_refused (h : Spells octets c) {n : Nat} (hpos : 0 < n) :
    ∀ octet ∈ octets.drop n, start octet = .refused := by
  obtain ⟨n, rfl⟩ := Nat.exists_eq_succ_of_ne_zero (Nat.ne_of_gt hpos)
  cases h with
  | single => simp
  | several _ hrest => exact fun octet hoctet =>
      hrest.start_eq_refused octet (List.mem_of_mem_drop hoctet)

/-- Octets that could not begin a character are replaced one by one. -/
theorem decodeLossyFrom_of_refused (h : ∀ octet ∈ octets, start octet = .refused)
    (rest : List UInt8) : decodeLossyFrom none (octets ++ rest) =
      List.replicate octets.length replacement ++ decodeLossyFrom none rest := by
  induction octets with
  | nil => rfl
  | cons octet more ih =>
    obtain ⟨hoctet, hmore⟩ := List.forall_mem_cons.1 h
    simp only [List.cons_append, decodeLossyFrom, hoctet, ih hmore, List.length_cons,
      List.replicate_succ]

/-- Of a character that has lost its first octets, each one that is left is replaced. -/
theorem Spells.decodeLossyFrom_drop (h : Spells octets c) {n : Nat} (hpos : 0 < n)
    (rest : List UInt8) : decodeLossyFrom none (octets.drop n ++ rest) =
      List.replicate (octets.length - n) replacement ++ decodeLossyFrom none rest := by
  rw [decodeLossyFrom_of_refused (h.start_eq_refused hpos), List.length_drop]

/-- The same where the character is also cut off at its end. -/
theorem Spells.decodeLossyFrom_take_drop (h : Spells octets c) {m n : Nat} (hpos : 0 < n)
    (hm : n + m ≤ octets.length) :
    decodeLossyFrom none ((octets.drop n).take m) = List.replicate m replacement := by
  have hrefused : ∀ octet ∈ (octets.drop n).take m, start octet = .refused := fun octet hoctet =>
    h.start_eq_refused hpos octet (List.mem_of_mem_take hoctet)
  have hlength : ((octets.drop n).take m).length = m := by
    rw [List.length_take, List.length_drop]
    omega
  have hread := decodeLossyFrom_of_refused hrefused []
  rwa [hlength, List.append_nil, decodeLossyFrom, List.append_nil] at hread

/-! ### The octets of several characters -/

/-- The octets of several characters, one after the other. -/
def octetsOf (cs : List Char) : List UInt8 := cs.flatMap String.utf8EncodeChar

/-- The octets of a text are those of its characters. -/
theorem encode_eq_octetsOf (text : String) : encode text = octetsOf text.toList := by
  have htext : text.toByteArray = (octetsOf text.toList).toByteArray := by
    rw [octetsOf, ← List.utf8Encode, ← String.toByteArray_ofList, String.ofList_toList]
  rw [encode, String.toUTF8_eq_toByteArray, htext, List.data_toByteArray]

theorem length_encode (text : String) : (encode text).length = text.utf8ByteSize := by
  rw [encode, Array.length_toList, String.toUTF8_eq_toByteArray, ← String.size_toByteArray]
  rfl

theorem octetsOf_cons (c : Char) (cs : List Char) :
    octetsOf (c :: cs) = String.utf8EncodeChar c ++ octetsOf cs :=
  List.flatMap_cons

theorem octetsOf_append (cs cs' : List Char) : octetsOf (cs ++ cs') = octetsOf cs ++ octetsOf cs' :=
  List.flatMap_append

/-- The octets of characters are read as these characters, whatever follows. -/
theorem decodeLossyFrom_octetsOf_append (cs : List Char) (rest : List UInt8) :
    decodeLossyFrom none (octetsOf cs ++ rest) = cs ++ decodeLossyFrom none rest := by
  induction cs with
  | nil => rfl
  | cons c cs ih =>
    rw [octetsOf_cons, List.append_assoc, (spells_utf8EncodeChar c).decodeLossyFrom_append, ih,
      List.cons_append]

theorem encode_append (text text' : String) :
    encode (text ++ text') = encode text ++ encode text' := by
  simp only [encode_eq_octetsOf, String.toList_append, octetsOf_append]

/-- The octets of a text are read as this text. -/
theorem decodeLossy_encode (text : String) : decodeLossy (encode text) = text := by
  have hread := decodeLossyFrom_octetsOf_append text.toList []
  rw [decodeLossyFrom, List.append_nil, List.append_nil] at hread
  rw [decodeLossy, encode_eq_octetsOf, hread, String.ofList_toList]

end TypeCatalog.Text.Utf8

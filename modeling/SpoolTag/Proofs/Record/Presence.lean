import SpoolTag.Bitmap

/-! # The bits of a bitmap

A bitmap is read through `Nat.testBit`: `insert` sets one bit and keeps the others
(`testBit_insert`), and `contains` looks at one of the eight (`contains_ofNat`). So the registers
that a bitmap names are those a condition selects as soon as the bits agree with the condition
(`presentFrom_eq_filter`).

A list may be longer than a bitmap. A position is looked up by its lowest eight bits, so the registers
that are named stand at the positions whose remainder has its bit set, and these are not only the first
eight: `present_by_remainder` says when they are. -/

namespace SpoolTag

namespace Bitmap

@[simp] theorem testBit_empty (i : Nat) : empty.bits.toNat.testBit i = false := by
  simp [empty]

theorem testBit_insert (m : Bitmap) {index : UInt8} (h : index < 8) (i : Nat) :
    (m.insert index).bits.toNat.testBit i = (m.bits.toNat.testBit i || index.toNat == i) := by
  have h8 : index.toNat < 8 := h
  have hpow : 2 ^ index.toNat < 2 ^ 8 := Nat.pow_lt_pow_right (by decide) h8
  simp only [insert, UInt8.toNat_or, UInt8.toNat_shiftLeft, Nat.testBit_or]
  congr 1
  rw [Nat.mod_eq_of_lt h8, show UInt8.toNat 1 = 1 from rfl, Nat.one_shiftLeft,
    Nat.mod_eq_of_lt hpow, Nat.testBit_two_pow]
  rfl

theorem contains_ofNat (m : Bitmap) {i : Nat} (h : i < 8) :
    m.contains (UInt8.ofNat i) = m.bits.toNat.testBit i := by
  have hi : (UInt8.ofNat i).toNat = i := by
    rw [UInt8.toNat_ofNat']
    exact Nat.mod_eq_of_lt (by omega)
  have hlt : UInt8.ofNat i < 8 := by
    rw [UInt8.lt_iff_toNat_lt, hi]
    exact h
  have hbit : ((m.bits >>> UInt8.ofNat i) &&& 1 != 0) = m.bits.toNat.testBit i := by
    rw [Nat.testBit, Bool.eq_iff_iff]
    simp only [bne_iff_ne, ne_eq, ← UInt8.toNat_inj, UInt8.toNat_and, UInt8.toNat_shiftRight, hi,
      Nat.mod_eq_of_lt h, UInt8.reduceToNat, Nat.and_comm 1]
  rw [contains, hbit]
  simp [hlt]

/-- Bits that are set one after the other. -/
theorem testBit_foldl_insert (indices : List UInt8) (h : ∀ index ∈ indices, index < 8) :
    ∀ (m : Bitmap) (i : Nat), (indices.foldl insert m).bits.toNat.testBit i =
      (m.bits.toNat.testBit i || indices.any fun index => index.toNat == i) := by
  induction indices with
  | nil => intro m i; simp
  | cons index rest ih =>
    intro m i
    rw [List.foldl_cons, ih (fun other hother => h other (List.mem_cons_of_mem _ hother)),
      testBit_insert m (h index List.mem_cons_self), List.any_cons, Bool.or_assoc]

/-- There are eight bits. -/
theorem testBit_eq_false (m : Bitmap) {i : Nat} (h : 8 ≤ i) : m.bits.toNat.testBit i = false :=
  Nat.testBit_lt_two_pow
    (Nat.lt_of_lt_of_le m.bits.toNat_lt (Nat.pow_le_pow_right (by decide) h))

/-- A position is looked up by its lowest eight bits. -/
theorem contains_remainder (m : Bitmap) (i : Nat) :
    m.contains (UInt8.ofNat i) = m.bits.toNat.testBit (i % 256) := by
  have hsame : UInt8.ofNat i = UInt8.ofNat (i % 256) := by
    rw [← UInt8.toNat_inj, UInt8.toNat_ofNat', UInt8.toNat_ofNat']
    omega
  rw [hsame]
  by_cases h : i % 256 < 8
  · exact contains_ofNat m h
  · have hge : ¬ UInt8.ofNat (i % 256) < 8 := by
      rw [UInt8.lt_iff_toNat_lt, UInt8.toNat_ofNat']
      simp only [UInt8.reduceToNat]
      omega
    rw [testBit_eq_false m (by omega), contains]
    simp [hge]

/-- The registers that a bitmap names are those that a condition selects, when the bits are set
where the condition holds. -/
theorem presentFrom_eq_filter (m : Bitmap) (p : Register → Bool) (registers : List Register) :
    ∀ k : Nat, k + registers.length ≤ 8 →
      (∀ (i : Nat) (hi : i < registers.length), m.bits.toNat.testBit (k + i) = p registers[i]) →
        m.presentFrom k registers = registers.filter p := by
  induction registers with
  | nil => intro k _ _; rfl
  | cons r rest ih =>
    intro k hk h
    have hk' : k + 1 + rest.length ≤ 8 := by simp only [List.length_cons] at hk; omega
    have hhead : m.contains (UInt8.ofNat k) = p r := by
      rw [contains_ofNat m (by omega)]
      exact h 0 (by simp)
    have htail := ih (k + 1) hk' fun i hi => by
      have := h (i + 1) (by simpa using hi)
      rwa [List.getElem_cons_succ, ← Nat.add_assoc, Nat.add_right_comm] at this
    rw [presentFrom, hhead, htail]
    cases hp : p r with
    | true => rw [if_pos rfl, List.filter_cons_of_pos hp]
    | false => rw [if_neg (by simp), List.filter_cons_of_neg (by simp [hp])]

/-! ### Positions -/

/-- The registers at the positions that a condition selects, in order. -/
def atPositions (p : Nat → Bool) (registers : List Register) : List Register :=
  (registers.zipIdx.filter fun e => p e.2).map Prod.fst

/-- A narrower condition selects the same registers exactly if it holds at every position of the list
at which the wider one does. -/
theorem atPositions_eq_iff {p q : Nat → Bool} (h : ∀ i, q i = true → p i = true)
    (registers : List Register) : atPositions p registers = atPositions q registers ↔
      ∀ i < registers.length, p i = true → q i = true := by
  have hnarrow : registers.zipIdx.filter (fun e => q e.2) =
      (registers.zipIdx.filter fun e => p e.2).filter fun e => q e.2 := by
    rw [List.filter_filter]
    refine List.filter_congr fun e _ => ?_
    cases hq : q e.2 with
    | true => rw [h _ hq, Bool.and_true]
    | false => rw [Bool.false_and]
  unfold atPositions
  constructor
  · intro heq i hi hp
    have hlength := congrArg List.length heq
    rw [List.length_map, List.length_map, hnarrow, eq_comm] at hlength
    have hmem : (registers[i], i) ∈ registers.zipIdx.filter fun e => p e.2 :=
      List.mem_filter.2 ⟨List.mk_mem_zipIdx_iff_getElem?.2 (List.getElem?_eq_getElem hi), hp⟩
    exact List.length_filter_eq_length_iff.1 hlength _ hmem
  · intro hall
    have hsame : ((registers.zipIdx.filter fun e => p e.2).filter fun e => q e.2) =
        registers.zipIdx.filter fun e => p e.2 := by
      refine List.filter_eq_self.2 fun e he => ?_
      obtain ⟨hmem, hp⟩ := List.mem_filter.1 he
      obtain ⟨hlt, -⟩ := List.getElem?_eq_some_iff.1 (List.mk_mem_zipIdx_iff_getElem?.1 hmem)
      exact hall e.2 hlt hp
    rw [hnarrow, hsame]

theorem presentFrom_eq_zipIdx (m : Bitmap) (registers : List Register) :
    ∀ k : Nat, m.presentFrom k registers =
      ((registers.zipIdx k).filter fun e => m.bits.toNat.testBit (e.2 % 256)).map Prod.fst := by
  induction registers with
  | nil => intro k; rfl
  | cons r rest ih =>
    intro k
    rw [presentFrom, contains_remainder, ih (k + 1), List.zipIdx_cons]
    cases hbit : m.bits.toNat.testBit (k % 256) with
    | true => rw [if_pos rfl, List.filter_cons_of_pos (by simpa using hbit), List.map_cons]
    | false => rw [if_neg (by simp), List.filter_cons_of_neg (by simpa using hbit)]

/-- **The registers that a bitmap names** are those at the positions whose remainder modulo 256 has its
bit set. They are those at the first eight positions exactly if there is no other such position in the
list, so in particular whenever the list has at most 256 registers. -/
theorem present_by_remainder (m : Bitmap) (registers : List Register) :
    m.presentIn registers = atPositions (fun i => m.bits.toNat.testBit (i % 256)) registers ∧
    (m.presentIn registers =
        atPositions (fun i => decide (i < 8) && m.bits.toNat.testBit i) registers ↔
      ∀ i, 256 ≤ i → i < registers.length → m.bits.toNat.testBit (i % 256) = false) := by
  have hpresent : m.presentIn registers =
      atPositions (fun i => m.bits.toNat.testBit (i % 256)) registers :=
    presentFrom_eq_zipIdx m registers 0
  refine ⟨hpresent, ?_⟩
  have hnarrow (i : Nat) (h : (decide (i < 8) && m.bits.toNat.testBit i) = true) :
      m.bits.toNat.testBit (i % 256) = true := by
    rw [Bool.and_eq_true, decide_eq_true_iff] at h
    rw [Nat.mod_eq_of_lt (by omega)]
    exact h.2
  rw [hpresent, atPositions_eq_iff hnarrow]
  constructor
  · intro hall i hi hlt
    rw [← Bool.not_eq_true]
    intro hbit
    have hfirst := hall i hlt hbit
    simp only [Bool.and_eq_true, decide_eq_true_iff] at hfirst
    omega
  · intro hnone i hlt hbit
    by_cases hi : 256 ≤ i
    · rw [hnone i hi hlt] at hbit
      cases hbit
    · rw [Nat.mod_eq_of_lt (by omega)] at hbit
      have h8 : i < 8 := Nat.lt_of_not_le fun hge => by
        rw [testBit_eq_false m hge] at hbit
        cases hbit
      rw [hbit, decide_eq_true h8]
      rfl

/-- With one register more than 256, the last one is named along with the first. -/
theorem present_beyond_eight :
    let gauge : Register := ⟨"gauge", 0x08, .byte⟩
    let last : Register := ⟨"last", 0x09, .byte⟩
    let registers := List.replicate 256 gauge ++ [last]
    registers[256]? = some last ∧ Bitmap.presentIn ⟨1⟩ registers = [gauge, last] ∧
      atPositions (fun i => decide (i < 8) && (1 : UInt8).toNat.testBit i) registers = [gauge] := by
  decide +kernel

end Bitmap

end SpoolTag

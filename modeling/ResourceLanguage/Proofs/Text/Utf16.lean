import Mathlib.Data.List.Basic
import ResourceLanguage.Text.Utf16

/-!
Texts in UTF-16. Reading inverts writing in both directions: what is written reads without an error
as the text it was written from, and what reads without an error was written from the text it reads
as. An error is an odd number of bytes or a surrogate without its partner, and nothing else.
-/

namespace ResourceLanguage.Text

theorem toNat_ofNat {n : Nat} (h : n.isValidChar) : (Char.ofNat n).toNat = n := by
  rw [Char.ofNat, dif_pos h]
  rfl

theorem isLeadSurrogate_iff {unit : Nat} :
    isLeadSurrogate unit = true ↔ 0xD800 ≤ unit ∧ unit < 0xDC00 := by
  simp [isLeadSurrogate]

theorem isTrailSurrogate_iff {unit : Nat} :
    isTrailSurrogate unit = true ↔ 0xDC00 ≤ unit ∧ unit < 0xE000 := by
  simp [isTrailSurrogate]

/-! ### Bytes and code units -/

namespace ByteOrder

variable (order : ByteOrder)

theorem unit_lt (first second : UInt8) : order.unit first second < 0x10000 := by
  have hfirst := first.toNat_lt
  have hsecond := second.toNat_lt
  cases order with
  | little =>
      simp only [unit]
      omega
  | big =>
      simp only [unit]
      omega

@[simp] theorem bytes_unit (first second : UInt8) :
    order.bytes (order.unit first second) = [first, second] := by
  have hfirst := first.toNat_lt
  have hsecond := second.toNat_lt
  cases order with
  | little =>
      simp only [bytes, unit, List.cons.injEq, ← UInt8.toNat_inj, UInt8.toNat_ofNat', and_true]
      omega
  | big =>
      simp only [bytes, unit, List.cons.injEq, ← UInt8.toNat_inj, UInt8.toNat_ofNat', and_true]
      omega

theorem exists_bytes {unit : Nat} (h : unit < 0x10000) :
    ∃ first second, order.bytes unit = [first, second] ∧ order.unit first second = unit := by
  cases order with
  | little =>
      refine ⟨_, _, rfl, ?_⟩
      simp only [ByteOrder.unit, UInt8.toNat_ofNat']
      omega
  | big =>
      refine ⟨_, _, rfl, ?_⟩
      simp only [ByteOrder.unit, UInt8.toNat_ofNat']
      omega

/-- The code units of some bytes. A single byte at the end belongs to none. -/
def units : List UInt8 → List Nat
  | first :: second :: rest => order.unit first second :: units rest
  | _ => []

end ByteOrder

/-! ### Characters and code units -/

/-- A code unit that is no surrogate is a character of its own. -/
theorem utf16Units_ofNat {unit : Nat} (hunit : unit < 0x10000)
    (hlead : ¬isLeadSurrogate unit = true) (htrail : ¬isTrailSurrogate unit = true) :
    utf16Units (Char.ofNat unit) = [unit] := by
  rw [isLeadSurrogate_iff] at hlead
  rw [isTrailSurrogate_iff] at htrail
  have hvalid : unit.isValidChar := by
    unfold Nat.isValidChar
    omega
  rw [utf16Units, toNat_ofNat hvalid, if_pos hunit]

theorem utf16Units_surrogatePair {lead trail : Nat} (hlead : isLeadSurrogate lead = true)
    (htrail : isTrailSurrogate trail = true) :
    utf16Units (surrogatePair lead trail) = [lead, trail] := by
  rw [isLeadSurrogate_iff] at hlead
  rw [isTrailSurrogate_iff] at htrail
  have hvalid : (0x10000 + (lead - 0xD800) * 0x400 + (trail - 0xDC00)).isValidChar := by
    unfold Nat.isValidChar
    omega
  rw [utf16Units, surrogatePair, toNat_ofNat hvalid, if_neg (by omega)]
  simp only [List.cons.injEq, and_true]
  omega

/-- Every character is one code unit that is no surrogate, or a pair of surrogates. -/
theorem utf16Units_cases (c : Char) :
    (∃ unit, unit < 0x10000 ∧ ¬isLeadSurrogate unit = true ∧ ¬isTrailSurrogate unit = true ∧
      utf16Units c = [unit] ∧ c = Char.ofNat unit) ∨
    ∃ lead trail, isLeadSurrogate lead = true ∧ isTrailSurrogate trail = true ∧
      utf16Units c = [lead, trail] ∧ c = surrogatePair lead trail := by
  have hvalid : c.toNat < 0xD800 ∨ 0xDFFF < c.toNat ∧ c.toNat < 0x110000 := c.valid
  simp only [isLeadSurrogate_iff, isTrailSurrogate_iff]
  by_cases hsmall : c.toNat < 0x10000
  · refine .inl ⟨c.toNat, hsmall, by omega, by omega, if_pos hsmall, (Char.ofNat_toNat c).symm⟩
  · refine .inr ⟨_, _, ?_, ?_, if_neg hsmall, ?_⟩
    · omega
    · omega
    · conv_lhs => rw [← Char.ofNat_toNat c]
      exact congrArg Char.ofNat (by omega)

/-! ### Reading what was written -/

section

variable {order : ByteOrder}

theorem decodeUtf16_cons_plain {first second : UInt8}
    (hlead : ¬isLeadSurrogate (order.unit first second) = true)
    (htrail : ¬isTrailSurrogate (order.unit first second) = true) (rest : List UInt8) :
    decodeUtf16 order (first :: second :: rest) =
      some (Char.ofNat (order.unit first second)) :: decodeUtf16 order rest := by
  rw [decodeUtf16.eq_def]
  simp only [hlead, htrail, Bool.false_eq_true, if_false]

theorem decodeUtf16_cons_pair {first second third fourth : UInt8}
    (hlead : isLeadSurrogate (order.unit first second) = true)
    (htrail : isTrailSurrogate (order.unit third fourth) = true) (rest : List UInt8) :
    decodeUtf16 order (first :: second :: third :: fourth :: rest) =
      some (surrogatePair (order.unit first second) (order.unit third fourth)) ::
        decodeUtf16 order rest := by
  rw [decodeUtf16, if_pos hlead]
  exact if_pos htrail

theorem decodeUtf16_utf16Units (c : Char) (rest : List UInt8) :
    decodeUtf16 order ((utf16Units c).flatMap order.bytes ++ rest) =
      some c :: decodeUtf16 order rest := by
  rcases utf16Units_cases c with
    ⟨unit, hunit, hlead, htrail, hunits, hc⟩ | ⟨lead, trail, hlead, htrail, hunits, hc⟩
  · obtain ⟨first, second, hbytes, rfl⟩ := order.exists_bytes hunit
    rw [hunits, List.flatMap_singleton, hbytes, hc]
    exact decodeUtf16_cons_plain hlead htrail rest
  · have hlead_lt : lead < 0x10000 := by
      have := isLeadSurrogate_iff.mp hlead
      omega
    have htrail_lt : trail < 0x10000 := by
      have := isTrailSurrogate_iff.mp htrail
      omega
    obtain ⟨first, second, hbytes, rfl⟩ := order.exists_bytes hlead_lt
    obtain ⟨third, fourth, hbytes', rfl⟩ := order.exists_bytes htrail_lt
    rw [hunits, List.flatMap_cons, List.flatMap_singleton, hbytes, hbytes', hc]
    exact decodeUtf16_cons_pair hlead htrail rest

theorem encodeUtf16_cons (c : Char) (text : List Char) :
    encodeUtf16 order (c :: text) =
      (utf16Units c).flatMap order.bytes ++ encodeUtf16 order text := rfl

theorem decodeUtf16_encodeUtf16 (text : List Char) :
    decodeUtf16 order (encodeUtf16 order text) = text.map some := by
  induction text with
  | nil => simp [encodeUtf16, decodeUtf16]
  | cons c text ih =>
      rw [encodeUtf16_cons, decodeUtf16_utf16Units, ih, List.map_cons]

/-- What reads without an error was written from the text it reads as. -/
theorem eq_encodeUtf16_of_decodeUtf16 {bytes : List UInt8} {text : List Char}
    (h : decodeUtf16 order bytes = text.map some) : bytes = encodeUtf16 order text := by
  fun_induction decodeUtf16 order bytes generalizing text with
  | case1 =>
      obtain rfl := List.map_eq_nil_iff.mp h.symm
      rfl
  | case5 first second unit hlead third fourth more htrail =>
      rename_i ih
      cases text with
      | nil => cases h
      | cons c text =>
          rw [List.map_cons, List.cons.injEq, Option.some_inj] at h
          obtain ⟨rfl, h⟩ := h
          rw [encodeUtf16_cons, utf16Units_surrogatePair hlead htrail, ← ih h]
          simp [unit]
  | case8 first second rest unit hlead htrail =>
      rename_i ih
      cases text with
      | nil => cases h
      | cons c text =>
          rw [List.map_cons, List.cons.injEq, Option.some_inj] at h
          obtain ⟨rfl, h⟩ := h
          rw [encodeUtf16_cons, utf16Units_ofNat (order.unit_lt _ _) hlead htrail, ← ih h]
          simp
  | case2 | case3 | case4 | case6 | case7 => cases text <;> simp at h

end

/-! ### Errors -/

/-- Some surrogate has no partner: a lead surrogate that no trail surrogate follows, or a trail
surrogate that follows no lead surrogate. -/
def HasLoneSurrogate (units : List Nat) : Prop :=
  ∃ front unit back, units = front ++ unit :: back ∧
    (isLeadSurrogate unit = true ∧ back.head?.any isTrailSurrogate = false ∨
      isTrailSurrogate unit = true ∧ front.getLast?.any isLeadSurrogate = false)

namespace HasLoneSurrogate

theorem lead {unit : Nat} (h : isLeadSurrogate unit = true) {units : List Nat}
    (hnext : units.head?.any isTrailSurrogate = false) : HasLoneSurrogate (unit :: units) :=
  ⟨[], unit, units, rfl, .inl ⟨h, hnext⟩⟩

theorem trail {unit : Nat} (h : isTrailSurrogate unit = true) (units : List Nat) :
    HasLoneSurrogate (unit :: units) :=
  ⟨[], unit, units, rfl, .inr ⟨h, rfl⟩⟩

/-- A unit that is no lead surrogate is no partner of what follows it. -/
theorem cons {units : List Nat} (h : HasLoneSurrogate units) {unit : Nat}
    (hunit : ¬isLeadSurrogate unit = true) : HasLoneSurrogate (unit :: units) := by
  obtain ⟨front, lone, back, rfl, hlone⟩ := h
  refine ⟨unit :: front, lone, back, rfl, hlone.imp_right fun ⟨htrail, hlast⟩ => ⟨htrail, ?_⟩⟩
  cases front with
  | nil => simpa using hunit
  | cons other front => rwa [List.getLast?_cons_cons]

/-- A unit that is no surrogate has no part in it. -/
theorem of_cons {unit : Nat} {units : List Nat} (h : HasLoneSurrogate (unit :: units))
    (hlead : ¬isLeadSurrogate unit = true) (htrail : ¬isTrailSurrogate unit = true) :
    HasLoneSurrogate units := by
  obtain ⟨front, lone, back, hunits, hlone⟩ := h
  cases front with
  | nil =>
      obtain ⟨rfl, -⟩ := List.cons.inj hunits
      rcases hlone with ⟨hlone, -⟩ | ⟨hlone, -⟩
      · exact absurd hlone hlead
      · exact absurd hlone htrail
  | cons other front =>
      obtain ⟨rfl, rfl⟩ := List.cons.inj hunits
      refine ⟨front, lone, back, rfl, hlone.imp_right fun ⟨htrail, hlast⟩ => ⟨htrail, ?_⟩⟩
      cases front with
      | nil => rfl
      | cons next front => rwa [List.getLast?_cons_cons] at hlast

/-- Nor have two surrogates that are partners. -/
theorem of_cons_pair {lead trail : Nat} {units : List Nat}
    (h : HasLoneSurrogate (lead :: trail :: units)) (hlead : isLeadSurrogate lead = true)
    (htrail : isTrailSurrogate trail = true) : HasLoneSurrogate units := by
  have hlead' := isLeadSurrogate_iff.mp hlead
  have htrail' := isTrailSurrogate_iff.mp htrail
  obtain ⟨front, lone, back, hunits, hlone⟩ := h
  cases front with
  | nil =>
      obtain ⟨rfl, rfl⟩ := List.cons.inj hunits
      rcases hlone with ⟨-, hnext⟩ | ⟨hlone, -⟩
      · simp [htrail] at hnext
      · rw [isTrailSurrogate_iff] at hlone
        omega
  | cons other front =>
      obtain ⟨rfl, hrest⟩ := List.cons.inj hunits
      cases front with
      | nil =>
          obtain ⟨rfl, rfl⟩ := List.cons.inj hrest
          rcases hlone with ⟨hlone, -⟩ | ⟨-, hlast⟩
          · rw [isLeadSurrogate_iff] at hlone
            omega
          · simp [hlead] at hlast
      | cons other front =>
          obtain ⟨rfl, rfl⟩ := List.cons.inj hrest
          refine ⟨front, lone, back, rfl, hlone.imp_right fun ⟨htrail, hlast⟩ => ⟨htrail, ?_⟩⟩
          cases front with
          | nil => rfl
          | cons next front => rwa [List.getLast?_cons_cons, List.getLast?_cons_cons] at hlast

/-- Partners are no partners of what follows them. -/
theorem cons_pair {units : List Nat} (h : HasLoneSurrogate units) (lead : Nat) {trail : Nat}
    (htrail : isTrailSurrogate trail = true) : HasLoneSurrogate (lead :: trail :: units) := by
  obtain ⟨front, lone, back, rfl, hlone⟩ := h
  refine ⟨lead :: trail :: front, lone, back, rfl,
    hlone.imp_right fun ⟨hlone, hlast⟩ => ⟨hlone, ?_⟩⟩
  cases front with
  | nil =>
      have htrail := isTrailSurrogate_iff.mp htrail
      have hlead : ¬isLeadSurrogate trail = true := by
        rw [isLeadSurrogate_iff]
        omega
      simpa using hlead
  | cons other front => rwa [List.getLast?_cons_cons, List.getLast?_cons_cons]

end HasLoneSurrogate

/-- Reading meets an error exactly when there is an odd number of bytes or a surrogate without its
partner. -/
theorem none_mem_decodeUtf16_iff (order : ByteOrder) (bytes : List UInt8) :
    none ∈ decodeUtf16 order bytes ↔
      bytes.length % 2 = 1 ∨ HasLoneSurrogate (order.units bytes) := by
  fun_induction decodeUtf16 order bytes with
  | case1 => simp [ByteOrder.units, HasLoneSurrogate]
  | case2 => simp
  | case3 first second unit hlead =>
      have hlone : HasLoneSurrogate (order.units [first, second]) := .lead hlead rfl
      simp [hlone]
  | case4 => simp
  | case5 first second unit hlead third fourth more htrail ih =>
      have hlone : HasLoneSurrogate (order.units (first :: second :: third :: fourth :: more)) ↔
          HasLoneSurrogate (order.units more) :=
        ⟨fun h => h.of_cons_pair hlead htrail, fun h => h.cons_pair unit htrail⟩
      have hparity : (first :: second :: third :: fourth :: more).length % 2 = more.length % 2 := by
        simp only [List.length_cons]
        omega
      rw [hlone, hparity, ← ih]
      simp
  | case6 first second unit hlead third fourth more htrail ih =>
      have hlone : HasLoneSurrogate (order.units (first :: second :: third :: fourth :: more)) :=
        .lead hlead (by simpa [ByteOrder.units] using htrail)
      simp [hlone]
  | case7 first second rest unit hlead htrail ih =>
      have hlone : HasLoneSurrogate (order.units (first :: second :: rest)) := .trail htrail _
      simp [hlone]
  | case8 first second rest unit hlead htrail ih =>
      have hlone : HasLoneSurrogate (order.units (first :: second :: rest)) ↔
          HasLoneSurrogate (order.units rest) :=
        ⟨fun h => h.of_cons hlead htrail, fun h => h.cons hlead⟩
      have hparity : (first :: second :: rest).length % 2 = rest.length % 2 := by
        simp only [List.length_cons]
        omega
      rw [hlone, hparity, ← ih]
      simp

end ResourceLanguage.Text

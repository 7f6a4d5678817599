import Mathlib.Data.List.Basic

/-! Decoding bytes as UTF-8 with every ill-formed part replaced by U+FFFD, one byte at a time,
and what it does to text that was encoded. -/

namespace Utf8Text

def replacement : Char := Char.ofNat 0xFFFD

/-- A sequence whose first bytes are read: the bits so far, how many continuation bytes follow
the next one, and the range of the next one. -/
structure Partial where
  value : Nat
  more : Nat
  lo : Nat
  hi : Nat
  lo_ge : 0x80 ≤ lo
  hi_le : hi ≤ 0xBF

def lead (b : Nat) : Option Partial :=
  if 0xC2 ≤ b ∧ b ≤ 0xDF then some ⟨b - 0xC0, 0, 0x80, 0xBF, by omega, by omega⟩
  else if 0xE0 ≤ b ∧ b ≤ 0xEF then
    some ⟨b - 0xE0, 1, if b = 0xE0 then 0xA0 else 0x80, if b = 0xED then 0x9F else 0xBF,
      by split <;> omega, by split <;> omega⟩
  else if 0xF0 ≤ b ∧ b ≤ 0xF4 then
    some ⟨b - 0xF0, 2, if b = 0xF0 then 0x90 else 0x80, if b = 0xF4 then 0x8F else 0xBF,
      by split <;> omega, by split <;> omega⟩
  else none

/-- The characters of `bs` when the sequence `s` has been begun. -/
def decodeFrom : Option Partial → List UInt8 → List Char
  | none, [] => []
  | some _, [] => [replacement]
  | none, b :: bs =>
    if b.toNat < 0x80 then Char.ofNat b.toNat :: decodeFrom none bs
    else match lead b.toNat with
      | some s => decodeFrom (some s) bs
      | none => replacement :: decodeFrom none bs
  | some s, b :: bs =>
    if s.lo ≤ b.toNat ∧ b.toNat ≤ s.hi then
      match s.more with
      | 0 => Char.ofNat (s.value * 64 + (b.toNat - 0x80)) :: decodeFrom none bs
      | more + 1 =>
        decodeFrom (some ⟨s.value * 64 + (b.toNat - 0x80), more, 0x80, 0xBF, Nat.le_refl _, Nat.le_refl _⟩) bs
    else
      -- what was begun is replaced, and `b` begins anew
      replacement ::
        if b.toNat < 0x80 then Char.ofNat b.toNat :: decodeFrom none bs
        else match lead b.toNat with
          | some s => decodeFrom (some s) bs
          | none => replacement :: decodeFrom none bs

def decodeLossy (bs : List UInt8) : List Char := decodeFrom none bs

def encode (text : List Char) : List UInt8 := text.flatMap String.utf8EncodeChar

def IsContinuation (b : UInt8) : Prop := 0x80 ≤ b.toNat ∧ b.toNat ≤ 0xBF

def StartsSequence (bs : List UInt8) : Prop := ∀ b ∈ bs.head?, ¬ IsContinuation b

theorem decodeFrom_some_of_starts {s : Partial} {bs : List UInt8} (h : StartsSequence bs) :
    decodeFrom (some s) bs = replacement :: decodeFrom none bs := by
  cases bs with
  | nil => rfl
  | cons b bs =>
    have hb : ¬ IsContinuation b := h b rfl
    have hno : ¬ (s.lo ≤ b.toNat ∧ b.toNat ≤ s.hi) := by
      rintro ⟨hlo, hhi⟩
      exact hb ⟨Nat.le_trans s.lo_ge hlo, Nat.le_trans hhi s.hi_le⟩
    simp only [decodeFrom, if_neg hno]

theorem decodeFrom_append (s : Option Partial) (xs : List UInt8) {bs : List UInt8}
    (h : StartsSequence bs) :
    decodeFrom s (xs ++ bs) = decodeFrom s xs ++ decodeFrom none bs := by
  induction xs generalizing s with
  | nil =>
    cases s with
    | none => rfl
    | some s => exact decodeFrom_some_of_starts h
  | cons x xs ih =>
    have hbegin : (if x.toNat < 0x80 then Char.ofNat x.toNat :: decodeFrom none (xs ++ bs)
        else match lead x.toNat with
          | some s => decodeFrom (some s) (xs ++ bs)
          | none => replacement :: decodeFrom none (xs ++ bs)) =
        (if x.toNat < 0x80 then Char.ofNat x.toNat :: decodeFrom none xs
        else match lead x.toNat with
          | some s => decodeFrom (some s) xs
          | none => replacement :: decodeFrom none xs) ++ decodeFrom none bs := by
      by_cases hx : x.toNat < 0x80
      · rw [if_pos hx, if_pos hx, ih, List.cons_append]
      · rw [if_neg hx, if_neg hx]
        cases lead x.toNat with
        | none => exact congrArg _ (ih none)
        | some s => exact ih (some s)
    cases s with
    | none => exact hbegin
    | some s =>
      rw [List.cons_append]
      by_cases hr : s.lo ≤ x.toNat ∧ x.toNat ≤ s.hi
      · simp only [decodeFrom, if_pos hr]
        cases s.more with
        | zero => exact congrArg _ (ih none)
        | succ more => exact ih _
      · simp only [decodeFrom, if_neg hr]
        exact congrArg _ hbegin

theorem decodeLossy_append (xs : List UInt8) {bs : List UInt8} (h : StartsSequence bs) :
    decodeLossy (xs ++ bs) = decodeLossy xs ++ decodeLossy bs :=
  decodeFrom_append none xs h

theorem decodeLossy_ascii {b : UInt8} (hb : b.toNat < 0x80) (bs : List UInt8) :
    decodeLossy (b :: bs) = Char.ofNat b.toNat :: decodeLossy bs := by
  simp only [decodeLossy, decodeFrom, if_pos hb]

theorem decodeFrom_lead {b : UInt8} {s : Partial} (hb : 0x80 ≤ b.toNat)
    (hs : lead b.toNat = some s) (bs : List UInt8) :
    decodeFrom none (b :: bs) = decodeFrom (some s) bs := by
  simp only [decodeFrom, if_neg (Nat.not_lt.mpr hb), hs]

theorem decodeFrom_last {s : Partial} {b : UInt8} (hlo : s.lo ≤ b.toNat) (hhi : b.toNat ≤ s.hi)
    (hmore : s.more = 0) (bs : List UInt8) :
    decodeFrom (some s) (b :: bs) =
      Char.ofNat (s.value * 64 + (b.toNat - 0x80)) :: decodeFrom none bs := by
  simp only [decodeFrom, if_pos (And.intro hlo hhi), hmore]

theorem decodeFrom_more {s : Partial} {b : UInt8} {more : Nat} (hlo : s.lo ≤ b.toNat)
    (hhi : b.toNat ≤ s.hi) (hmore : s.more = more + 1) (bs : List UInt8) :
    decodeFrom (some s) (b :: bs) = decodeFrom (some ⟨s.value * 64 + (b.toNat - 0x80), more,
      0x80, 0xBF, Nat.le_refl _, Nat.le_refl _⟩) bs := by
  simp only [decodeFrom, if_pos (And.intro hlo hhi), hmore]

theorem toNat_ofNat {n : Nat} (h : n < 256) : (UInt8.ofNat n).toNat = n := by
  rw [UInt8.toNat_ofNat']
  exact Nat.mod_eq_of_lt h

theorem toNat_continuation (n : Nat) : (UInt8.ofNat (n % 0x40 + 0x80)).toNat = n % 64 + 0x80 :=
  toNat_ofNat (by omega)

theorem isContinuation_ofNat (n : Nat) : IsContinuation (UInt8.ofNat (n % 0x40 + 0x80)) := by
  have hn := toNat_continuation n
  constructor <;> omega

theorem decode_two {v : Nat} (hlo : 0x7f < v) (hhi : v ≤ 0x7ff) (bs : List UInt8) :
    decodeFrom none (UInt8.ofNat (v / 64 % 0x20 + 0xc0) :: UInt8.ofNat (v % 0x40 + 0x80) :: bs) =
      Char.ofNat v :: decodeFrom none bs := by
  have h₁ : (UInt8.ofNat (v / 64 % 0x20 + 0xc0)).toNat = v / 64 + 0xc0 := by
    rw [toNat_ofNat (by omega)]
    omega
  have hlead : lead (UInt8.ofNat (v / 64 % 0x20 + 0xc0)).toNat =
      some ⟨v / 64, 0, 0x80, 0xBF, by omega, by omega⟩ := by
    rw [h₁, lead, if_pos (by omega)]
    simp
  rw [decodeFrom_lead (by omega) hlead, decodeFrom_last (isContinuation_ofNat v).1
    (isContinuation_ofNat v).2 rfl, toNat_continuation]
  have hv : v / 64 * 64 + (v % 64 + 0x80 - 0x80) = v := by omega
  rw [hv]

theorem decode_three {v : Nat} (hlo : 0x7ff < v) (hhi : v ≤ 0xffff)
    (hv : v < 0xd800 ∨ 0xdfff < v) (bs : List UInt8) :
    decodeFrom none (UInt8.ofNat (v / 4096 % 0x10 + 0xe0) :: UInt8.ofNat (v / 64 % 0x40 + 0x80) ::
      UInt8.ofNat (v % 0x40 + 0x80) :: bs) = Char.ofNat v :: decodeFrom none bs := by
  have h₁ : (UInt8.ofNat (v / 4096 % 0x10 + 0xe0)).toNat = v / 4096 + 0xe0 := by
    rw [toNat_ofNat (by omega)]
    omega
  have h₂ := toNat_continuation (v / 64)
  obtain ⟨s, hlead, hvalue, hmore, hs₂, hs₂'⟩ : ∃ s, lead (v / 4096 + 0xe0) = some s ∧
      s.value = v / 4096 ∧ s.more = 1 ∧ s.lo ≤ v / 64 % 64 + 0x80 ∧
      v / 64 % 64 + 0x80 ≤ s.hi := by
    rw [lead, if_neg (by omega), if_pos (by omega)]
    -- the first continuation byte is bounded where the lead byte is E0 or ED
    refine ⟨_, rfl, by simp, rfl, ?_, ?_⟩
    · simp only
      split <;> omega
    · simp only
      split <;> omega
  rw [← h₁] at hlead
  rw [decodeFrom_lead (by omega) hlead, decodeFrom_more (by omega) (by omega) hmore,
    decodeFrom_last (isContinuation_ofNat v).1 (isContinuation_ofNat v).2 rfl]
  simp only [toNat_continuation, hvalue]
  have hv : (v / 4096 * 64 + (v / 64 % 64 + 0x80 - 0x80)) * 64 + (v % 64 + 0x80 - 0x80) = v := by
    omega
  rw [hv]

theorem decode_four {v : Nat} (hlo : 0xffff < v) (hhi : v < 0x110000) (bs : List UInt8) :
    decodeFrom none (UInt8.ofNat (v / 262144 % 0x08 + 0xf0) ::
      UInt8.ofNat (v / 4096 % 0x40 + 0x80) :: UInt8.ofNat (v / 64 % 0x40 + 0x80) ::
      UInt8.ofNat (v % 0x40 + 0x80) :: bs) = Char.ofNat v :: decodeFrom none bs := by
  have h₁ : (UInt8.ofNat (v / 262144 % 0x08 + 0xf0)).toNat = v / 262144 + 0xf0 := by
    rw [toNat_ofNat (by omega)]
    omega
  have h₂ := toNat_continuation (v / 4096)
  obtain ⟨s, hlead, hvalue, hmore, hs₂, hs₂'⟩ : ∃ s, lead (v / 262144 + 0xf0) = some s ∧
      s.value = v / 262144 ∧ s.more = 2 ∧ s.lo ≤ v / 4096 % 64 + 0x80 ∧
      v / 4096 % 64 + 0x80 ≤ s.hi := by
    rw [lead, if_neg (by omega), if_neg (by omega), if_pos (by omega)]
    refine ⟨_, rfl, by simp, rfl, ?_, ?_⟩
    · simp only
      split <;> omega
    · simp only
      split <;> omega
  rw [← h₁] at hlead
  rw [decodeFrom_lead (by omega) hlead, decodeFrom_more (by omega) (by omega) hmore,
    decodeFrom_more (isContinuation_ofNat (v / 64)).1 (isContinuation_ofNat (v / 64)).2 rfl,
    decodeFrom_last (isContinuation_ofNat v).1 (isContinuation_ofNat v).2 rfl]
  simp only [toNat_continuation, hvalue]
  have hv : ((v / 262144 * 64 + (v / 4096 % 64 + 0x80 - 0x80)) * 64 +
      (v / 64 % 64 + 0x80 - 0x80)) * 64 + (v % 64 + 0x80 - 0x80) = v := by
    omega
  rw [hv]

/-- A character's own bytes decode to it, whatever follows. -/
theorem decodeLossy_utf8EncodeChar (c : Char) (bs : List UInt8) :
    decodeLossy (String.utf8EncodeChar c ++ bs) = c :: decodeLossy bs := by
  have hvalid : c.val.toNat < 0xd800 ∨ 0xdfff < c.val.toNat ∧ c.val.toNat < 0x110000 := c.valid
  have hc : Char.ofNat c.val.toNat = c := Char.ofNat_toNat c
  unfold decodeLossy String.utf8EncodeChar
  by_cases h₁ : c.val.toNat ≤ 0x7f
  · have hb : (UInt8.ofNat c.val.toNat).toNat = c.val.toNat := toNat_ofNat (by omega)
    have hone := decodeLossy_ascii (b := UInt8.ofNat c.val.toNat) (by omega) bs
    rw [hb, hc] at hone
    simp only [if_pos h₁]
    exact hone
  · by_cases h₂ : c.val.toNat ≤ 0x7ff
    · have htwo := decode_two (Nat.not_le.mp h₁) h₂ bs
      rw [hc] at htwo
      simp only [if_neg h₁, if_pos h₂]
      exact htwo
    · by_cases h₃ : c.val.toNat ≤ 0xffff
      · have hthree := decode_three (Nat.not_le.mp h₂) h₃ (by omega) bs
        rw [hc] at hthree
        simp only [if_neg h₁, if_neg h₂, if_pos h₃]
        exact hthree
      · have hfour := decode_four (Nat.not_le.mp h₃) (by omega) bs
        rw [hc] at hfour
        simp only [if_neg h₁, if_neg h₂, if_neg h₃]
        exact hfour

theorem utf8EncodeChar_bytes (c : Char) :
    String.utf8EncodeChar c = [UInt8.ofNat c.val.toNat] ∧ c.val.toNat < 0x80 ∨
      ∃ b bs, String.utf8EncodeChar c = b :: bs ∧ 0xC0 ≤ b.toNat ∧ ∀ x ∈ bs, IsContinuation x := by
  have hvalid : c.val.toNat < 0xd800 ∨ 0xdfff < c.val.toNat ∧ c.val.toNat < 0x110000 := c.valid
  unfold String.utf8EncodeChar
  by_cases h₁ : c.val.toNat ≤ 0x7f
  · exact .inl ⟨by simp only [if_pos h₁], by omega⟩
  · right
    by_cases h₂ : c.val.toNat ≤ 0x7ff
    · simp only [if_neg h₁, if_pos h₂]
      refine ⟨_, _, rfl, ?_, ?_⟩
      · rw [toNat_ofNat (by omega)]
        omega
      · simp only [List.forall_mem_cons, List.not_mem_nil, false_implies, implies_true, and_true]
        exact isContinuation_ofNat _
    · by_cases h₃ : c.val.toNat ≤ 0xffff
      · simp only [if_neg h₁, if_neg h₂, if_pos h₃]
        refine ⟨_, _, rfl, ?_, ?_⟩
        · rw [toNat_ofNat (by omega)]
          omega
        · simp only [List.forall_mem_cons, List.not_mem_nil, false_implies, implies_true, and_true]
          exact ⟨isContinuation_ofNat _, isContinuation_ofNat _⟩
      · simp only [if_neg h₁, if_neg h₂, if_neg h₃]
        refine ⟨_, _, rfl, ?_, ?_⟩
        · rw [toNat_ofNat (by omega)]
          omega
        · simp only [List.forall_mem_cons, List.not_mem_nil, false_implies, implies_true, and_true]
          exact ⟨isContinuation_ofNat _, isContinuation_ofNat _, isContinuation_ofNat _⟩

theorem startsSequence_utf8EncodeChar (c : Char) (bs : List UInt8) :
    StartsSequence (String.utf8EncodeChar c ++ bs) := by
  rcases utf8EncodeChar_bytes c with ⟨hc, hlt⟩ | ⟨b, bs', hc, hb, -⟩
  · rw [hc]
    intro x hx hcont
    obtain rfl : UInt8.ofNat c.val.toNat = x := by simpa using hx
    rw [IsContinuation, toNat_ofNat (by omega)] at hcont
    omega
  · rw [hc]
    intro x hx hcont
    obtain rfl : b = x := by simpa using hx
    have := hcont.2
    omega

theorem decodeLossy_encode_append (text : List Char) (bs : List UInt8) :
    decodeLossy (encode text ++ bs) = text ++ decodeLossy bs := by
  induction text with
  | nil => rfl
  | cons c text ih =>
    have happ : encode (c :: text) ++ bs = String.utf8EncodeChar c ++ (encode text ++ bs) := by
      simp [encode]
    rw [happ, decodeLossy_utf8EncodeChar, ih, List.cons_append]

theorem decodeLossy_encode (text : List Char) : decodeLossy (encode text) = text := by
  simpa [decodeLossy, decodeFrom] using decodeLossy_encode_append text []

example : decodeLossy [0x61, 0xE2, 0x82, 0x62, 0xFF] = ['a', replacement, 'b', replacement] := by
  decide

end Utf8Text

import Redisson.GlobLanguage
import Redisson.Utf8Text
import Mathlib.Data.List.Forall2

/-! Redis matches patterns with channels byte by byte under its full glob syntax; the service
matches them again, character by character, and knows `*` and `?` only. -/

namespace Redisson

open GlobLanguage Utf8Text

namespace RedisGlob

structure ClassState where
  negated : Bool
  accepts : UInt8 → Bool

def ClassState.add (set : ClassState) (lo hi : UInt8) : ClassState :=
  { set with accepts := fun b => set.accepts b || (lo ≤ b && b ≤ hi) }

def ClassState.token (set : ClassState) : Token UInt8 :=
  .single fun b => set.accepts b != set.negated

/-- Where the reading of a pattern stands: outside brackets, after a backslash, after `[`, in a
bracket expression, there after a backslash, after a letter, and after a letter and `-`. -/
inductive Mode
  | plain
  | escaped
  | opened
  | inClass (set : ClassState)
  | classEscaped (set : ClassState)
  | classLetter (set : ClassState) (a : UInt8)
  | range (set : ClassState) (a : UInt8)

def ClassState.next (set : ClassState) (b : UInt8) : List (Token UInt8) × Mode :=
  if b = ']'.toUInt8 then ([set.token], .plain)
  else if b = '\\'.toUInt8 then ([], .classEscaped set)
  else ([], .classLetter set b)

/-- The tokens that the next byte completes, where `?` stands for a byte that `one` accepts. -/
def Mode.next (one : UInt8 → Bool) (b : UInt8) : Mode → List (Token UInt8) × Mode
  | plain =>
    if b = '*'.toUInt8 then ([.star], .plain)
    else if b = '?'.toUInt8 then ([.single one], .plain)
    else if b = '['.toUInt8 then ([], .opened)
    else if b = '\\'.toUInt8 then ([], .escaped)
    else ([.lit b], .plain)
  | escaped => ([.lit b], .plain)
  | opened =>
    if b = '^'.toUInt8 then ([], .inClass ⟨true, fun _ => false⟩)
    else ClassState.next ⟨false, fun _ => false⟩ b
  | inClass set => set.next b
  | classEscaped set => ([], .inClass (set.add b b))
  | classLetter set a => if b = '-'.toUInt8 then ([], .range set a) else (set.add a a).next b
  | range set a => ([], .inClass (set.add (min a b) (max a b)))

/-- The tokens that the end of the pattern completes; it also closes a bracket expression. -/
def Mode.close : Mode → List (Token UInt8)
  | plain => []
  | escaped => [.lit '\\'.toUInt8]
  | opened => [ClassState.token ⟨false, fun _ => false⟩]
  | inClass set => [set.token]
  | classEscaped set => [(set.add '\\'.toUInt8 '\\'.toUInt8).token]
  | classLetter set a => [(set.add a a).token]
  | range set a => [((set.add a a).add '-'.toUInt8 '-'.toUInt8).token]

def parse (one : UInt8 → Bool) : Mode → List UInt8 → List (Token UInt8)
  | m, [] => m.close
  | m, b :: bs => (m.next one b).1 ++ parse one (m.next one b).2 bs

def glob (pattern channel : List UInt8) : Bool :=
  globMatches (parse (fun _ => true) .plain pattern) channel

def ascii (b : UInt8) : Bool := b < 0x80

/-- The matches in which every `?` stands for an ASCII byte. -/
def asciiGlob (pattern channel : List UInt8) : Bool :=
  globMatches (parse ascii .plain pattern) channel

end RedisGlob

/-- `glob_inner`, where `p` and `t` are what its indices leave of pattern and text. -/
def globInner : List Char → List Char → Bool
  | [], t => t.isEmpty
  | c :: p, t =>
    if c = '*' then t.tails.any fun rest => globInner p rest
    else match t with
      | [] => false
      | x :: t => (c = '?' || x == c) && globInner p t

def redisGlobMatches (pattern text : String) : Bool := globInner pattern.toList text.toList

def charToken (c : Char) : Token Char :=
  if c = '*' then .star else if c = '?' then .single fun _ => true else .lit c

theorem globInner_eq (p t : List Char) : globInner p t = globMatches (p.map charToken) t := by
  induction p generalizing t with
  | nil => rfl
  | cons c p ih =>
    by_cases hstar : c = '*'
    · simp [globInner, charToken, globMatches, hstar, ih]
    · by_cases hone : c = '?'
      · cases t <;> simp [globInner, charToken, globMatches, hone, ih]
      · cases t <;> simp [globInner, charToken, globMatches, Token.lit, hstar, hone, ih]

/-! What a pattern without brackets and backslashes matches in bytes, it matches in the
characters that the bytes decode to, so long as `?` only stands for ASCII. -/

namespace RedisGlob

def Plain (p : List Char) : Prop := '[' ∉ p ∧ '\\' ∉ p

def byteTokens (one : UInt8 → Bool) (c : Char) : List (Token UInt8) :=
  if c = '*' then [.star] else if c = '?' then [.single one]
  else (String.utf8EncodeChar c).map .lit

def Special (b : UInt8) : Prop :=
  b = '*'.toUInt8 ∨ b = '?'.toUInt8 ∨ b = '['.toUInt8 ∨ b = '\\'.toUInt8

theorem parse_literals (one : UInt8 → Bool) {bs : List UInt8} (h : ∀ b ∈ bs, ¬ Special b)
    (rest : List UInt8) :
    parse one .plain (bs ++ rest) = bs.map .lit ++ parse one .plain rest := by
  induction bs with
  | nil => rfl
  | cons b bs ih =>
    obtain ⟨h₁, h₂, h₃, h₄⟩ : b ≠ '*'.toUInt8 ∧ b ≠ '?'.toUInt8 ∧ b ≠ '['.toUInt8 ∧
        b ≠ '\\'.toUInt8 := by
      simpa [Special] using h b (by simp)
    rw [List.cons_append, parse, Mode.next, if_neg h₁, if_neg h₂, if_neg h₃, if_neg h₄,
      ih fun b' hb' => h b' (by simp [hb'])]
    rfl

theorem char_of_byte {c d : Char} (hc : c.val.toNat < 0x80) (hd : d.val.toNat < 0x80)
    (h : UInt8.ofNat c.val.toNat = d.toUInt8) : c = d := by
  have hn : c.val.toNat = d.val.toNat := by
    have hh := congrArg UInt8.toNat h
    rw [toNat_ofNat (by omega)] at hh
    rw [hh]
    exact Nat.mod_eq_of_lt (by omega)
  exact Char.ext (UInt32.toNat_inj.mp hn)

theorem not_special {c : Char} (h₁ : c ≠ '*') (h₂ : c ≠ '?') (h₃ : c ≠ '[') (h₄ : c ≠ '\\') :
    ∀ b ∈ String.utf8EncodeChar c, ¬ Special b := by
  intro b hb hs
  rcases utf8EncodeChar_bytes c with ⟨hc, hlt⟩ | ⟨b', bs, hc, hb', hbs⟩
  · obtain rfl : b = UInt8.ofNat c.val.toNat := by simpa [hc] using hb
    rcases hs with hs | hs | hs | hs
    · exact h₁ (char_of_byte hlt (by decide) hs)
    · exact h₂ (char_of_byte hlt (by decide) hs)
    · exact h₃ (char_of_byte hlt (by decide) hs)
    · exact h₄ (char_of_byte hlt (by decide) hs)
  · have hge : 0x80 ≤ b.toNat := by
      rw [hc] at hb
      rcases List.mem_cons.mp hb with rfl | hb
      · omega
      · exact (hbs b hb).1
    rcases hs with rfl | rfl | rfl | rfl <;> revert hge <;> decide

theorem parse_encode (one : UInt8 → Bool) {p : List Char} (h : Plain p) :
    parse one .plain (encode p) = p.flatMap (byteTokens one) := by
  induction p with
  | nil => rfl
  | cons c p ih =>
    have hp : Plain p := ⟨fun hm => h.1 (by simp [hm]), fun hm => h.2 (by simp [hm])⟩
    have hcons : encode (c :: p) = String.utf8EncodeChar c ++ encode p := rfl
    rw [hcons, List.flatMap_cons, ← ih hp]
    by_cases hstar : c = '*'
    · subst hstar
      rfl
    · by_cases hone : c = '?'
      · subst hone
        rfl
      · have hbracket : c ≠ '[' := fun hc => h.1 (by simp [hc])
        have hslash : c ≠ '\\' := fun hc => h.2 (by simp [hc])
        rw [parse_literals one (not_special hstar hone hbracket hslash)]
        simp [byteTokens, hstar, hone]

theorem ascii_iff (b : UInt8) : ascii b = true ↔ b.toNat < 0x80 := by
  simp [ascii, UInt8.lt_iff_toNat_lt]

/-- Only a star can leave a rest that begins inside a sequence. -/
theorem startsSequence_or_star {p : List Char} {raw : List UInt8}
    (h : globMatches (p.flatMap (byteTokens ascii)) raw = true) :
    StartsSequence raw ∨ ∃ p', p = '*' :: p' := by
  cases p with
  | nil =>
    obtain rfl := (globMatches_nil raw).mp h
    exact .inl fun b hb => by cases hb
  | cons c p =>
    by_cases hstar : c = '*'
    · exact .inr ⟨p, by rw [hstar]⟩
    · left
      rw [List.flatMap_cons] at h
      by_cases hone : c = '?'
      · rw [byteTokens, if_neg hstar, if_pos hone] at h
        obtain ⟨b, rest, rfl, hb, -⟩ := (globMatches_single _ _ raw).mp h
        intro x hx hcont
        obtain rfl : b = x := by simpa using hx
        have hlt := (ascii_iff b).mp hb
        have hge := hcont.1
        omega
      · rw [byteTokens, if_neg hstar, if_neg hone] at h
        obtain ⟨rest, rfl, -⟩ := (globMatches_lits _ _ raw).mp h
        exact startsSequence_utf8EncodeChar c rest

theorem globMatches_decode {p : List Char} {raw : List UInt8}
    (h : globMatches (p.flatMap (byteTokens ascii)) raw = true) :
    globMatches (p.map charToken) (decodeLossy raw) = true := by
  induction p generalizing raw with
  | nil =>
    obtain rfl := (globMatches_nil raw).mp h
    rfl
  | cons c p ih =>
    rw [List.map_cons]
    rw [List.flatMap_cons] at h
    by_cases hstar : c = '*'
    · rw [charToken, if_pos hstar]
      rw [byteTokens, if_pos hstar] at h
      obtain ⟨u, v, rfl, hv⟩ := (globMatches_star _ raw).mp h
      rcases startsSequence_or_star hv with hs | ⟨p', rfl⟩
      · rw [decodeLossy_append u hs]
        exact (globMatches_star _ _).mpr ⟨_, _, rfl, ih hv⟩
      · -- the next star takes what this one has begun
        have hone : globMatches (('*' :: p').flatMap (byteTokens ascii)) (u ++ v) = true := by
          rw [List.flatMap_cons] at h ⊢
          exact (globMatches_star_star _ _) ▸ h
        have hglob := ih hone
        exact (globMatches_star _ _).mpr ⟨[], _, rfl, hglob⟩
    · by_cases hone : c = '?'
      · rw [charToken, if_neg hstar, if_pos hone]
        rw [byteTokens, if_neg hstar, if_pos hone] at h
        obtain ⟨b, rest, rfl, hb, hrest⟩ := (globMatches_single _ _ raw).mp h
        rw [decodeLossy_ascii ((ascii_iff b).mp hb)]
        exact (globMatches_single _ _ _).mpr ⟨_, _, rfl, rfl, ih hrest⟩
      · rw [charToken, if_neg hstar, if_neg hone]
        rw [byteTokens, if_neg hstar, if_neg hone] at h
        obtain ⟨rest, rfl, hrest⟩ := (globMatches_lits _ _ raw).mp h
        rw [decodeLossy_utf8EncodeChar]
        exact (globMatches_single _ _ _).mpr ⟨_, _, rfl, by simp, ih hrest⟩

theorem globInner_decode {p : List Char} (hp : Plain p) {raw : List UInt8}
    (h : asciiGlob (encode p) raw = true) : globInner p (decodeLossy raw) = true := by
  rw [globInner_eq]
  have hparse := parse_encode ascii hp
  exact globMatches_decode (hparse ▸ h)

theorem asciiGlob_of_no_question {p : List Char} (hp : Plain p) (hq : '?' ∉ p)
    {raw : List UInt8} (h : glob (encode p) raw = true) : asciiGlob (encode p) raw = true := by
  have htokens : p.flatMap (byteTokens ascii) = p.flatMap (byteTokens fun _ => true) := by
    refine List.flatMap_congr fun c hc => ?_
    have hone : c ≠ '?' := fun he => hq (he ▸ hc)
    simp [byteTokens, hone]
  have hascii : parse ascii .plain (encode p) = parse (fun _ => true) .plain (encode p) := by
    rw [parse_encode ascii hp, htokens, parse_encode _ hp]
  exact (congrArg (fun ts => globMatches ts raw) hascii).trans h

theorem asciiGlob_of_ascii {p : List Char} (hp : Plain p) {raw : List UInt8}
    (hraw : ∀ b ∈ raw, ascii b = true) (h : glob (encode p) raw = true) :
    asciiGlob (encode p) raw = true := by
  have hchar : ∀ c, List.Forall₂ (Token.Le fun b => ascii b = true)
      (byteTokens (fun _ => true) c) (byteTokens ascii c) := by
    intro c
    unfold byteTokens
    split
    · exact .cons trivial .nil
    · split
      · exact .cons (fun _ hb _ => hb) .nil
      · exact List.forall₂_same.mpr fun t ht => by
          obtain ⟨b, -, rfl⟩ := List.mem_map.mp ht
          exact fun _ _ hb => hb
  have hle : List.Forall₂ (Token.Le fun b => ascii b = true)
      (p.flatMap (byteTokens fun _ => true)) (p.flatMap (byteTokens ascii)) := by
    clear hp h
    induction p with
    | nil => exact .nil
    | cons c p ih => exact List.rel_append (hchar c) ih
  have hany : globMatches (p.flatMap (byteTokens fun _ => true)) raw = true := by
    rw [← parse_encode _ hp]
    exact h
  have hmatch := globMatches_mono hle hraw hany
  rw [← parse_encode _ hp] at hmatch
  exact hmatch

end RedisGlob

end Redisson

import Redisson.RedisGlob

/-! `glob_inner` with its indices: it runs over two slices and the positions it has reached in
them, and an access outside a slice would panic. -/

namespace GlobLanguage

variable {α : Type*}

/-- What a token may be replaced with. -/
def Token.Yields : Token α → List α → Prop
  | .star, _ => True
  | .single accepts, piece => ∃ a, piece = [a] ∧ accepts a = true

theorem globMatches_iff_pieces (ts : List (Token α)) (text : List α) :
    globMatches ts text = true ↔
      ∃ pieces, List.Forall₂ Token.Yields ts pieces ∧ text = pieces.flatten := by
  induction ts generalizing text with
  | nil => simp [globMatches_nil, List.forall₂_nil_left_iff]
  | cons t ts ih =>
    simp only [List.forall₂_cons_left_iff]
    constructor
    · intro h
      cases t with
      | star =>
        obtain ⟨u, v, rfl, hv⟩ := (globMatches_star ts text).mp h
        obtain ⟨pieces, hp, rfl⟩ := (ih v).mp hv
        exact ⟨u :: pieces, ⟨u, pieces, trivial, hp, rfl⟩, by simp⟩
      | single accepts =>
        obtain ⟨a, rest, rfl, ha, hrest⟩ := (globMatches_single accepts ts text).mp h
        obtain ⟨pieces, hp, rfl⟩ := (ih rest).mp hrest
        exact ⟨[a] :: pieces, ⟨[a], pieces, ⟨a, rfl, ha⟩, hp, rfl⟩, by simp⟩
    · intro h
      obtain ⟨_, ⟨u, pieces, hu, hp, rfl⟩, rfl⟩ := h
      have hrest := (ih pieces.flatten).mpr ⟨pieces, hp, rfl⟩
      cases t with
      | star => exact (globMatches_star ts _).mpr ⟨u, pieces.flatten, by simp, hrest⟩
      | single accepts =>
        obtain ⟨a, rfl, ha⟩ := hu
        exact (globMatches_single accepts ts _).mpr ⟨a, pieces.flatten, by simp, ha, hrest⟩

end GlobLanguage

namespace Redisson

open GlobLanguage

/-- `glob_inner`; `none` is the panic of an index out of range. -/
def globInnerAt (p : List Char) (pi : Nat) (t : List Char) (ti : Nat) : Option Bool :=
  if pi = p.length then some (ti == t.length)
  else
    match h : p[pi]? with
    | none => none
    | some c =>
      have : pi < p.length := (List.getElem?_eq_some_iff.mp h).1
      if c = '*' then
        (List.range' ti (t.length + 1 - ti)).anyM fun i => globInnerAt p (pi + 1) t i
      else if c = '?' then
        if ti < t.length then globInnerAt p (pi + 1) t (ti + 1) else some false
      else if ti < t.length then
        match t[ti]? with
        | none => none
        | some x => if x = c then globInnerAt p (pi + 1) t (ti + 1) else some false
      else some false
  termination_by p.length - pi

def redisGlobMatchesAt (pattern text : String) : Option Bool :=
  globInnerAt pattern.toList 0 text.toList 0

theorem anyM_some {β : Type} (f : β → Bool) (g : β → Option Bool) (l : List β)
    (h : ∀ b ∈ l, g b = some (f b)) : l.anyM g = some (l.any f) := by
  induction l with
  | nil => rfl
  | cons b l ih =>
    have hb := h b List.mem_cons_self
    have hl := ih fun b hb => h b (List.mem_cons_of_mem _ hb)
    cases hf : f b with
    | true => simp [List.anyM, hb, hf]
    | false => simp [List.anyM, hb, hf, hl]

theorem any_tails_drop (q : List Char → Bool) (t : List Char) (ti : Nat) (hti : ti ≤ t.length) :
    (t.drop ti).tails.any q = (List.range' ti (t.length + 1 - ti)).any fun i => q (t.drop i) := by
  rw [Bool.eq_iff_iff]
  simp only [List.any_eq_true, List.mem_tails, List.mem_range'_1]
  constructor
  · rintro ⟨rest, hsuffix, hq⟩
    have hlen := hsuffix.length_le
    have hdrop := List.suffix_iff_eq_drop.mp hsuffix
    rw [List.length_drop] at hlen hdrop
    rw [List.drop_drop] at hdrop
    exact ⟨ti + (t.length - ti - rest.length), by omega, by rwa [← hdrop]⟩
  · rintro ⟨i, hi, hq⟩
    have hsuffix := List.drop_suffix (i - ti) (t.drop ti)
    rw [List.drop_drop, show ti + (i - ti) = i by omega] at hsuffix
    exact ⟨t.drop i, hsuffix, hq⟩

theorem globInner_star (p t : List Char) :
    globInner ('*' :: p) t = t.tails.any fun rest => globInner p rest := by
  simp [globInner]

/-- What the indices leave of pattern and text is all that the matcher looks at, and it stays
within both. -/
theorem globInnerAt_eq (p t : List Char) {pi ti : Nat} (hpi : pi ≤ p.length)
    (hti : ti ≤ t.length) : globInnerAt p pi t ti = some (globInner (p.drop pi) (t.drop ti)) := by
  generalize hn : p.length - pi = n
  induction n generalizing pi ti with
  | zero =>
    have hend : pi = p.length := by omega
    have hempty : (t.drop ti).isEmpty = (ti == t.length) := by
      rw [Bool.eq_iff_iff, List.isEmpty_iff, List.drop_eq_nil_iff, beq_iff_eq]
      omega
    rw [globInnerAt, if_pos hend, hend, List.drop_length, globInner, hempty]
  | succ n ih =>
    have hlt : pi < p.length := by omega
    have hnext : p.length - (pi + 1) = n := by omega
    rw [globInnerAt, if_neg (by omega), List.drop_eq_getElem_cons hlt]
    split
    · rename_i hnone
      simp [hlt] at hnone
    · rename_i c hc
      have hget : p[pi] = c := by simpa [hlt] using hc
      rw [hget]
      by_cases hstar : c = '*'
      · rw [if_pos hstar, hstar, globInner_star, any_tails_drop _ t ti hti]
        apply anyM_some
        intro i hi
        rw [List.mem_range'_1] at hi
        exact ih (by omega) (by omega) hnext
      · rw [if_neg hstar]
        by_cases hroom : ti < t.length
        · have hrest := @ih (pi + 1) (ti + 1) (by omega) (by omega) hnext
          rw [if_pos hroom, if_pos hroom, hrest, List.drop_eq_getElem_cons hroom]
          by_cases hone : c = '?'
          · simp [globInner, hone]
          · simp only [hone, if_false, List.getElem?_eq_getElem hroom]
            by_cases hx : t[ti] = c <;> simp [globInner, hx, hstar, hone]
        · have hend : t.drop ti = [] := List.drop_eq_nil_of_le (by omega)
          rw [if_neg hroom, if_neg hroom, hend]
          simp [globInner, hstar]

/-- How the pattern's own language reads: what one character may be replaced with. -/
def Replaces (c : Char) (piece : List Char) : Prop :=
  if c = '*' then True else if c = '?' then ∃ x, piece = [x] else piece = [c]

def ObtainedFrom (p t : List Char) : Prop :=
  ∃ pieces, List.Forall₂ Replaces p pieces ∧ t = pieces.flatten

theorem charToken_yields (c : Char) (piece : List Char) :
    (charToken c).Yields piece ↔ Replaces c piece := by
  by_cases hstar : c = '*'
  · simp [charToken, Replaces, Token.Yields, hstar]
  · by_cases hone : c = '?'
    · simp [charToken, Replaces, Token.Yields, hone]
    · simp [charToken, Replaces, Token.Yields, Token.lit, hstar, hone]

theorem globInner_iff (p t : List Char) : globInner p t = true ↔ ObtainedFrom p t := by
  rw [globInner_eq, globMatches_iff_pieces]
  simp only [List.forall₂_map_left_iff, charToken_yields]
  exact Iff.rfl

theorem globInnerAt_iff (p t : List Char) {pi ti : Nat} (hpi : pi ≤ p.length)
    (hti : ti ≤ t.length) :
    ∃ b, globInnerAt p pi t ti = some b ∧ (b = true ↔ ObtainedFrom (p.drop pi) (t.drop ti)) :=
  ⟨_, globInnerAt_eq p t hpi hti, globInner_iff _ _⟩

/-- The index form is the matcher of the dispatch loop. -/
theorem redisGlobMatchesAt_eq (pattern text : String) :
    redisGlobMatchesAt pattern text = some (redisGlobMatches pattern text) := by
  rw [redisGlobMatchesAt, globInnerAt_eq _ _ (Nat.zero_le _) (Nat.zero_le _)]
  rfl

theorem redisGlobMatches_decides :
    (∀ pattern text : String, ∃ b, redisGlobMatchesAt pattern text = some b ∧
      (b = true ↔ ObtainedFrom pattern.toList text.toList)) ∧
    ∀ (p t : List Char) (pi ti : Nat), pi ≤ p.length → ti ≤ t.length →
      ∃ b, globInnerAt p pi t ti = some b ∧
        (b = true ↔ ObtainedFrom (p.drop pi) (t.drop ti)) := by
  refine ⟨fun pattern text => ?_, fun p t pi ti hpi hti => globInnerAt_iff p t hpi hti⟩
  exact ⟨_, redisGlobMatchesAt_eq pattern text, globInner_iff _ _⟩

theorem redisGlobMatches_decides_suffix :
    ∃ b, globInnerAt ['a', '*', '?'] 1 ['a', 'b', 'c'] 1 = some b ∧
      (b = true ↔ ObtainedFrom ['*', '?'] ['b', 'c']) :=
  redisGlobMatches_decides.2 ['a', '*', '?'] ['a', 'b', 'c'] 1 1 (by decide) (by decide)

end Redisson

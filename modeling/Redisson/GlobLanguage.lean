import Mathlib.Data.List.Infix

/-! Glob patterns over any alphabet: a token stands for any string or for one letter out of a
set. -/

namespace GlobLanguage

variable {α : Type*}

inductive Token (α : Type*)
  | star
  | single (accepts : α → Bool)

def Token.lit [DecidableEq α] (a : α) : Token α := .single fun b => b == a

def globMatches : List (Token α) → List α → Bool
  | [], text => text.isEmpty
  | .star :: ts, text => text.tails.any fun rest => globMatches ts rest
  | .single accepts :: ts, text =>
    match text with
    | [] => false
    | a :: text => accepts a && globMatches ts text

theorem globMatches_nil (text : List α) : globMatches [] text = true ↔ text = [] := by
  simp [globMatches]

theorem globMatches_star (ts : List (Token α)) (text : List α) :
    globMatches (.star :: ts) text = true ↔ ∃ u v, text = u ++ v ∧ globMatches ts v = true := by
  simp only [globMatches, List.any_eq_true, List.mem_tails]
  constructor
  · rintro ⟨v, ⟨u, rfl⟩, hv⟩
    exact ⟨u, v, rfl, hv⟩
  · rintro ⟨u, v, rfl, hv⟩
    exact ⟨v, ⟨u, rfl⟩, hv⟩

theorem globMatches_single (accepts : α → Bool) (ts : List (Token α)) (text : List α) :
    globMatches (.single accepts :: ts) text = true ↔
      ∃ a rest, text = a :: rest ∧ accepts a = true ∧ globMatches ts rest = true := by
  cases text with
  | nil => simp [globMatches]
  | cons a rest => simp [globMatches]

theorem globMatches_lits [DecidableEq α] (as : List α) (ts : List (Token α)) (text : List α) :
    globMatches (as.map Token.lit ++ ts) text = true ↔
      ∃ rest, text = as ++ rest ∧ globMatches ts rest = true := by
  induction as generalizing text with
  | nil => simp
  | cons a as ih =>
    rw [List.map_cons, List.cons_append, Token.lit, globMatches_single]
    constructor
    · rintro ⟨b, rest, rfl, hb, hrest⟩
      obtain ⟨rest', rfl, hm⟩ := (ih rest).mp hrest
      exact ⟨rest', by simpa using hb, hm⟩
    · rintro ⟨rest, rfl, hm⟩
      exact ⟨a, as ++ rest, rfl, by simp, (ih _).mpr ⟨rest, rfl, hm⟩⟩

theorem globMatches_star_star (ts : List (Token α)) (text : List α) :
    globMatches (.star :: .star :: ts) text = globMatches (.star :: ts) text := by
  rw [Bool.eq_iff_iff, globMatches_star]
  constructor
  · rintro ⟨u, v, rfl, hv⟩
    obtain ⟨u', w, rfl, hw⟩ := (globMatches_star ts v).mp hv
    exact (globMatches_star ts _).mpr ⟨u ++ u', w, by simp, hw⟩
  · exact fun h => ⟨[], text, rfl, h⟩

/-- A token that accepts whatever another one accepts, among the letters of a text. -/
def Token.Le (P : α → Prop) : Token α → Token α → Prop
  | .star, .star => True
  | .single f, .single g => ∀ a, P a → f a = true → g a = true
  | _, _ => False

theorem globMatches_mono {P : α → Prop} {ts us : List (Token α)} (h : List.Forall₂ (Token.Le P) ts us)
    {text : List α} (hP : ∀ a ∈ text, P a) (hm : globMatches ts text = true) :
    globMatches us text = true := by
  induction h generalizing text with
  | nil => exact hm
  | @cons t u ts us hle _ ih =>
    match t, u, hle with
    | .star, .star, _ =>
      obtain ⟨v, w, rfl, hw⟩ := (globMatches_star ts text).mp hm
      exact (globMatches_star us _).mpr
        ⟨v, w, rfl, ih (fun a ha => hP a (List.mem_append_right _ ha)) hw⟩
    | .single f, .single g, hle =>
      obtain ⟨a, rest, rfl, ha, hrest⟩ := (globMatches_single f ts text).mp hm
      exact (globMatches_single g us _).mpr
        ⟨a, rest, rfl, hle a (hP a (by simp)) ha, ih (fun b hb => hP b (by simp [hb])) hrest⟩

end GlobLanguage

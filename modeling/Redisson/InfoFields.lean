import Redisson.ReplicationInfo
import Mathlib.Data.List.TakeWhile
import Mathlib.Data.Nat.Digits.Defs

/-! What `parse_info_str` and `parse_info_i64` find in a text that has the form of INFO: lines
that are empty, headings of a section, or a field, whose name ends at the first colon. -/

namespace Redisson

open ReplicationInfo

inductive LineEnd
  | lf
  | crlf

def LineEnd.chars : LineEnd → List Char
  | lf => ['\n']
  | crlf => ['\r', '\n']

inductive InfoContent
  | blank
  | heading (title : List Char) (oneLine : '\n' ∉ title)
  | field (name value : List Char) (noColon : ':' ∉ name) (nameOneLine : '\n' ∉ name)
    (valueOneLine : '\n' ∉ value)

structure InfoLine where
  content : InfoContent
  ending : LineEnd

namespace InfoLine

def body (l : InfoLine) : List Char :=
  match l.content with
  | .blank => []
  | .heading title _ => '#' :: title
  | .field name value .. => name ++ ':' :: value

def chars (l : InfoLine) : List Char := l.body ++ l.ending.chars

/-- The value of the line, if it is the field of that name. -/
def valueOf (name : List Char) (l : InfoLine) : Option (List Char) :=
  match l.content with
  | .field name' value .. => if name' = name then some value else none
  | _ => none

end InfoLine

def infoText (ls : List InfoLine) : String := String.ofList (ls.flatMap InfoLine.chars)

/-- The value of the first field of that name. -/
def fieldValue (name : List Char) (ls : List InfoLine) : Option (List Char) :=
  ls.findSome? (InfoLine.valueOf name)

def decimal (ds : List Char) : Nat := Nat.ofDigits 10 (ds.reverse.map fun d => d.toNat - '0'.toNat)

/-- The text is an `i64` in decimal: one digit or more, and a sign that may be left out. -/
structure IsI64 (cs : List Char) (n : Int) : Prop where
  shape : ∃ ds, ds ≠ [] ∧ (∀ d ∈ ds, d.isDigit = true) ∧
    (cs = '-' :: ds ∧ n = -(decimal ds : Int) ∨ (cs = ds ∨ cs = '+' :: ds) ∧ n = decimal ds)
  lower : -2 ^ 63 ≤ n
  upper : n < 2 ^ 63

/-- The field of that name is read for what it is, and nothing is read when there is none. -/
structure ReadsField (ls : List InfoLine) (name : String) : Prop where
  str : parseStr (infoText ls) name = (fieldValue name.toList ls).map trim
  i64 : ∀ v n, fieldValue name.toList ls = some v → IsI64 (trim v) n → parseInt (infoText ls) name = n
  zero : (∀ v n, fieldValue name.toList ls = some v → ¬ IsI64 (trim v) n) →
    parseInt (infoText ls) name = 0

section Lines

theorem stripCr_concat (cs : List Char) : stripCr (cs ++ ['\r']) = cs := by
  simp [stripCr]

theorem stripCr_of_ne {cs : List Char} (h : cs.getLast? ≠ some '\r') : stripCr cs = cs := by
  simp [stripCr, h]

theorem stripCr_cases (cs : List Char) : cs = stripCr cs ++ ['\r'] ∨ stripCr cs = cs := by
  rcases List.eq_nil_or_concat' cs with rfl | ⟨init, c, rfl⟩
  · exact .inr rfl
  · by_cases hc : c = '\r'
    · subst hc
      simp [stripCr_concat]
    · exact .inr (stripCr_of_ne (by simpa using hc))

theorem lines_newline {cs : List Char} (h : '\n' ∉ cs) (rest line : List Char) :
    lines (cs ++ '\n' :: rest) line = stripCr (line ++ cs) :: lines rest [] := by
  induction cs generalizing line with
  | nil => simp [lines]
  | cons c cs ih =>
    have hc : c ≠ '\n' := fun he => h (by simp [he])
    have hcs : '\n' ∉ cs := fun hm => h (List.mem_cons_of_mem _ hm)
    simp [lines, hc, ih hcs]

theorem InfoLine.newline_not_mem_body (l : InfoLine) : '\n' ∉ l.body := by
  cases hl : l.content with
  | blank => simp [body, hl]
  | heading title h => simpa [body, hl] using h
  | field name value hc hn hv => simp [body, hl, hn, hv]

/-- What `str::lines` makes of the line. -/
def InfoLine.read (l : InfoLine) : List Char :=
  match l.ending with
  | .lf => stripCr l.body
  | .crlf => l.body

theorem lines_infoText (ls : List InfoLine) :
    lines (ls.flatMap InfoLine.chars) [] = ls.map InfoLine.read := by
  induction ls with
  | nil => simp [lines]
  | cons l ls ih =>
    have hbody := l.newline_not_mem_body
    rw [List.flatMap_cons, List.map_cons, ← ih, InfoLine.chars, InfoLine.read]
    cases l.ending with
    | lf =>
      have hh := lines_newline hbody (ls.flatMap InfoLine.chars) []
      simpa [LineEnd.chars] using hh
    | crlf =>
      have hcr : '\n' ∉ l.body ++ ['\r'] := by simp [hbody]
      have hh := lines_newline hcr (ls.flatMap InfoLine.chars) []
      rw [List.nil_append, stripCr_concat] at hh
      simpa [LineEnd.chars] using hh

end Lines

section Fields

theorem stripPrefix_eq_some {p cs rest : List Char} :
    stripPrefix p cs = some rest ↔ cs = p ++ rest := by
  induction p generalizing cs with
  | nil => simp [stripPrefix]
  | cons c p ih =>
    cases cs with
    | nil => simp [stripPrefix]
    | cons c' cs =>
      by_cases hc : c = c'
      · simp [stripPrefix, hc, ih]
      · simp [stripPrefix, hc, Ne.symm hc]

theorem append_colon_inj {a b x y : List Char} (ha : ':' ∉ a) (hb : ':' ∉ b) :
    a ++ ':' :: x = b ++ ':' :: y ↔ a = b ∧ x = y := by
  induction a generalizing b with
  | nil =>
    cases b with
    | nil => simp
    | cons c b =>
      have hc : ':' ≠ c := fun he => hb (he ▸ List.mem_cons_self)
      simp [hc]
  | cons c a ih =>
    cases b with
    | nil =>
      have hc : c ≠ ':' := fun he => ha (he ▸ List.mem_cons_self)
      simp [hc]
    | cons d b =>
      simp only [List.mem_cons, not_or] at ha hb
      simp [ih ha.2 hb.2, and_assoc]

theorem trim_concat {cs : List Char} {c : Char} (hc : isWhitespace c = true) :
    trim (cs ++ [c]) = trim cs := by
  by_cases hall : ∀ d ∈ cs, isWhitespace d = true
  · have hleft : cs.dropWhile isWhitespace = [] := List.dropWhile_eq_nil_iff.mpr hall
    simp [trim, List.dropWhile_append, hleft, hc]
  · have hleft : cs.dropWhile isWhitespace ≠ [] := fun h => hall (List.dropWhile_eq_nil_iff.mp h)
    simp [trim, List.dropWhile_append, hleft, hc]

theorem stripCr_colon (name value : List Char) :
    ∃ value', stripCr (name ++ ':' :: value) = name ++ ':' :: value' ∧ trim value' = trim value := by
  rcases stripCr_cases (name ++ ':' :: value) with h | h
  · rcases List.eq_nil_or_concat' value with rfl | ⟨init, c, rfl⟩
    · exact absurd (congrArg List.getLast? h) (by simp)
    · have hsplit : (name ++ ':' :: init) ++ [c] = stripCr (name ++ ':' :: (init ++ [c])) ++ ['\r'] := by
        simpa using h
      obtain ⟨hinit, hc⟩ := List.append_inj' hsplit rfl
      obtain rfl : c = '\r' := by simpa using hc
      exact ⟨init, hinit.symm, (trim_concat (by decide)).symm⟩
  · exact ⟨value, h, rfl⟩

/-- The line as read has the form of its body, with a value that is trimmed to the same. -/
theorem InfoLine.read_field {l : InfoLine} {name value : List Char} {h₁ : ':' ∉ name}
    {h₂ : '\n' ∉ name} {h₃ : '\n' ∉ value} (h : l.content = .field name value h₁ h₂ h₃) :
    ∃ value', l.read = name ++ ':' :: value' ∧ trim value' = trim value := by
  have hbody : l.body = name ++ ':' :: value := by simp [body, h]
  unfold read
  rw [hbody]
  cases l.ending with
  | lf => exact stripCr_colon name value
  | crlf => exact ⟨value, rfl, rfl⟩

theorem InfoLine.read_head {l : InfoLine} {title : List Char} {h₁ : '\n' ∉ title}
    (h : l.content = .heading title h₁) : ∃ title', l.read = '#' :: title' := by
  have hbody : l.body = '#' :: title := by simp [body, h]
  unfold read
  rw [hbody]
  cases l.ending with
  | lf =>
    rcases stripCr_cases ('#' :: title) with hs | hs
    · cases hh : stripCr ('#' :: title) with
      | nil => simp [hh] at hs
      | cons c cs =>
        rw [hh] at hs
        obtain ⟨rfl, -⟩ := List.cons.inj hs
        exact ⟨cs, rfl⟩
    · exact ⟨title, hs⟩
  | crlf => exact ⟨title, rfl⟩

theorem InfoLine.read_blank {l : InfoLine} (h : l.content = .blank) : l.read = [] := by
  have hbody : l.body = [] := by simp [body, h]
  unfold read
  rw [hbody]
  cases l.ending <;> rfl

variable {name : List Char}

theorem stripPrefix_colon (cs : List Char) :
    (stripPrefix name cs).bind (fun rest => (stripPrefix [':'] rest).map trim) = none ∨
      ∃ value, cs = name ++ ':' :: value ∧
        (stripPrefix name cs).bind (fun rest => (stripPrefix [':'] rest).map trim) = some (trim value) := by
  cases hp : stripPrefix name cs with
  | none => exact .inl rfl
  | some rest =>
    cases hc : stripPrefix [':'] rest with
    | none => exact .inl (by simp [hc])
    | some value =>
      refine .inr ⟨value, ?_, by simp [hc]⟩
      rw [stripPrefix_eq_some.mp hp, stripPrefix_eq_some.mp hc]
      rfl

/-- One round of the loop of `parse_info_str`. -/
theorem InfoLine.read_valueOf (hc : ':' ∉ name) (hh : name.head? ≠ some '#') (l : InfoLine) :
    (stripPrefix name l.read).bind (fun rest => (stripPrefix [':'] rest).map trim) =
      (l.valueOf name).map trim := by
  cases hl : l.content with
  | blank =>
    rw [l.read_blank hl, valueOf, hl]
    cases name <;> simp [stripPrefix]
  | heading title h₁ =>
    obtain ⟨title', hr⟩ := l.read_head hl
    rw [hr, valueOf, hl]
    rcases @stripPrefix_colon name ('#' :: title') with hn | ⟨value, he, -⟩
    · exact hn
    · -- the heading would have to start with the name
      cases name with
      | nil => cases he
      | cons c cs =>
        obtain ⟨rfl, -⟩ := List.cons.inj he
        exact absurd rfl hh
  | field name' value h₁ h₂ h₃ =>
    obtain ⟨value', hr, ht⟩ := l.read_field hl
    rw [hr, valueOf, hl]
    by_cases hn : name' = name
    · subst hn
      have hstrip : stripPrefix name' (name' ++ ':' :: value') = some (':' :: value') :=
        stripPrefix_eq_some.mpr rfl
      simp [hstrip, stripPrefix, ht]
    · rcases @stripPrefix_colon name (name' ++ ':' :: value') with hnone | ⟨value, he, -⟩
      · simpa [hn] using hnone
      · exact absurd ((append_colon_inj h₁ hc).mp he).1 hn

theorem parseStr_infoText {name : String} (hc : ':' ∉ name.toList) (hh : name.toList.head? ≠ some '#')
    (ls : List InfoLine) : parseStr (infoText ls) name = (fieldValue name.toList ls).map trim := by
  rw [parseStr, infoText, String.toList_ofList, lines_infoText, List.findSome?_map, fieldValue]
  induction ls with
  | nil => rfl
  | cons l ls ih =>
    have hl := l.read_valueOf hc hh
    cases hv : l.valueOf name.toList with
    | none => simpa [hl, hv] using ih
    | some v => simp [hl, hv]

end Fields

section Numbers

theorem decimal_cons (c : Char) (ds : List Char) :
    decimal (c :: ds) = (c.toNat - '0'.toNat) * 10 ^ ds.length + decimal ds := by
  simp only [decimal, List.reverse_cons, List.map_append, List.map_cons, List.map_nil,
    Nat.ofDigits_append, Nat.ofDigits_singleton, List.length_map, List.length_reverse]
  ring

theorem parseDigits_eq_some {ds : List Char} {n m : Nat} :
    parseDigits ds n = some m ↔
      (∀ d ∈ ds, d.isDigit = true) ∧ m = n * 10 ^ ds.length + decimal ds := by
  induction ds generalizing n with
  | nil =>
    have hnil : decimal [] = 0 := rfl
    simp only [parseDigits, Option.some.injEq, List.length_nil, pow_zero, mul_one, hnil, add_zero]
    simpa using eq_comm
  | cons c ds ih =>
    by_cases hc : c.isDigit = true
    · have hpow : n * 10 ^ (ds.length + 1) + ((c.toNat - '0'.toNat) * 10 ^ ds.length + decimal ds) =
          (10 * n + (c.toNat - '0'.toNat)) * 10 ^ ds.length + decimal ds := by ring
      rw [parseDigits, if_pos hc, ih, List.forall_mem_cons, decimal_cons, List.length_cons, hpow]
      simp only [hc, true_and]
    · simp [parseDigits, hc]

theorem parseDigits_zero {ds : List Char} {m : Nat} :
    parseDigits ds 0 = some m ↔ (∀ d ∈ ds, d.isDigit = true) ∧ m = decimal ds := by
  simp [parseDigits_eq_some]

theorem parseDigits_int {ds : List Char} {m : Int} :
    (do let n ← parseDigits ds 0; pure (n : Int)) = some m ↔
      (∀ d ∈ ds, d.isDigit = true) ∧ m = decimal ds := by
  cases hp : parseDigits ds 0 with
  | none =>
    have hno : ¬ ∀ d ∈ ds, d.isDigit = true := fun hd => by
      rw [parseDigits_zero.mpr ⟨hd, rfl⟩] at hp
      cases hp
    simp [hno]
  | some n =>
    obtain ⟨hd, rfl⟩ := parseDigits_zero.mp hp
    exact ⟨fun h => ⟨hd, (Option.some.inj h).symm⟩, fun h => congrArg some h.2.symm⟩

theorem parseI64_iff {cs : List Char} {n : Int} : parseI64 cs = some n ↔ IsI64 cs n := by
  unfold parseI64
  simp only [Option.filter_eq_some_iff, Bool.and_eq_true, decide_eq_true_eq]
  constructor
  · rintro ⟨hn, hlower, hupper⟩
    refine ⟨?_, hlower, hupper⟩
    split at hn
    · cases hn
    · cases hn
    · cases hn
    · next _ ds hne =>
      obtain ⟨m, hm, rfl⟩ := Option.map_eq_some_iff.mp hn
      obtain ⟨hd, rfl⟩ := parseDigits_int.mp hm
      exact ⟨ds, by simpa using hne, hd, .inl ⟨rfl, rfl⟩⟩
    · next _ ds hne =>
      obtain ⟨m, hm, rfl⟩ := Option.map_eq_some_iff.mp hn
      obtain ⟨hd, rfl⟩ := parseDigits_int.mp hm
      exact ⟨ds, by simpa using hne, hd, .inr ⟨.inr rfl, rfl⟩⟩
    · next hne _ _ _ _ =>
      obtain ⟨m, hm, rfl⟩ := Option.map_eq_some_iff.mp hn
      obtain ⟨hd, rfl⟩ := parseDigits_int.mp hm
      exact ⟨cs, hne, hd, .inr ⟨.inl rfl, rfl⟩⟩
  · rintro ⟨⟨ds, hne, hd, hcs⟩, hlower, hupper⟩
    refine ⟨?_, hlower, hupper⟩
    have hm := parseDigits_zero.mpr ⟨hd, rfl⟩
    rcases hcs with ⟨rfl, rfl⟩ | ⟨rfl | rfl, rfl⟩
    · cases ds with
      | nil => exact absurd rfl hne
      | cons d ds => simp [hm]
    · -- no sign: the text starts with a digit
      split
      · exact absurd rfl hne
      · exact absurd (hd '+' (by simp)) (by decide)
      · exact absurd (hd '-' (by simp)) (by decide)
      · exact absurd (hd '-' (by simp)) (by decide)
      · exact absurd (hd '+' (by simp)) (by decide)
      · simp [hm]
    · cases ds with
      | nil => exact absurd rfl hne
      | cons d ds => simp [hm]

end Numbers

/-- In a text of the form of INFO, a field is found under exactly its name. -/
theorem readsField_of_name {name : String} (hc : ':' ∉ name.toList)
    (hh : name.toList.head? ≠ some '#') (ls : List InfoLine) : ReadsField ls name := by
  have hstr := parseStr_infoText hc hh ls
  refine ⟨hstr, fun v n hv hn => ?_, fun hno => ?_⟩
  · simp [parseInt, hstr, hv, parseI64_iff.mpr hn]
  · unfold parseInt
    rw [hstr]
    cases hv : fieldValue name.toList ls with
    | none => rfl
    | some v =>
      have hnone : parseI64 (trim v) = none :=
        Option.eq_none_iff_forall_ne_some.mpr fun n hn => hno v n hv (parseI64_iff.mp hn)
      simp [hnone]

/-! A text with fields whose names start and end with the name that is looked for. -/

def replicationLines : List InfoLine :=
  [⟨.heading " Replication".toList (by decide), .crlf⟩,
    ⟨.field "max_connected_slaves".toList "7".toList (by decide) (by decide) (by decide), .lf⟩,
    ⟨.field "connected_slaves_max".toList "8:9".toList (by decide) (by decide) (by decide), .crlf⟩,
    ⟨.blank, .crlf⟩,
    ⟨.field "connected_slaves".toList " 2 ".toList (by decide) (by decide) (by decide), .crlf⟩,
    ⟨.field "connected_slaves".toList "3".toList (by decide) (by decide) (by decide), .lf⟩]

theorem readsField_replicationLines : ReadsField replicationLines "connected_slaves" ∧
    parseStr (infoText replicationLines) "connected_slaves" = some ['2'] ∧
    parseInt (infoText replicationLines) "connected_slaves" = 2 := by
  have hh := @readsField_of_name "connected_slaves" (by decide) (by decide) replicationLines
  refine ⟨hh, hh.str.trans (by decide), hh.i64 " 2 ".toList 2 (by decide) ?_⟩
  exact ⟨⟨['2'], by decide, by simp, .inr ⟨.inl (by decide), by decide⟩⟩, by decide, by decide⟩

end Redisson

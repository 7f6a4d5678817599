import Redisson.RedisBasedPicks

/-! The connections of the pool, which a Redis-based batch shares with others: its own sends and
what happens between them, and what a connection in MULTI state has queued. -/

namespace Redisson

/-- What another user of the pool does on a connection, or the loss of it. -/
inductive OtherUse
  | multi
  | command
  | exec
  | discard
  | lost
  deriving DecidableEq, Repr

structure OtherCall where
  conn : Connection
  use : OtherUse
  deriving DecidableEq, Repr

/-- A MULTI inside a transaction is refused and leaves it open. -/
def OtherUse.endsTransaction : OtherUse → Bool
  | multi | command => false
  | exec | discard | lost => true

inductive Traffic
  | other (c : OtherCall)
  | own (pick : Nat) (s : Send)

/-- The sends of a batch from the pick `n` on, each after what `others` tells of the time since
the one before. -/
def interleave (others : Nat → List OtherCall) : Nat → List Send → List Traffic
  | _, [] => []
  | n, s :: sends => (others n).map .other ++ .own n s :: interleave others (n + 1) sends

/-- The connection that is still in the transaction of the batch. -/
def afterOther (opened : Option Connection) (c : OtherCall) : Option Connection :=
  if c.use.endsTransaction ∧ opened = some c.conn then none else opened

/-- Every accepted command and every EXEC is sent on the connection of the latest accepted
MULTI before it, on which nobody else has ended the transaction since; `opened` is that of what
came before. -/
def InTransaction : Option Connection → List Traffic → Prop
  | _, [] => True
  | opened, .other c :: ts => InTransaction (afterOther opened c) ts
  | opened, .own _ s :: ts =>
    match s.purpose with
    | .multi => InTransaction (if s.ok then some s.conn else opened) ts
    | .command => (s.ok → opened = some s.conn) ∧ InTransaction opened ts
    | .exec => opened = some s.conn ∧ InTransaction opened ts
    | .wait => InTransaction opened ts

instance decidableInTransaction (opened : Option Connection) (ts : List Traffic) :
    Decidable (InTransaction opened ts) := by
  induction ts generalizing opened with
  | nil => exact .isTrue trivial
  | cons t ts ih =>
    cases t with
    | other c => exact ih _
    | own n s =>
      unfold InTransaction
      cases s.purpose
      · exact ih _
      · exact @instDecidableAnd _ _ _ (ih _)
      · exact @instDecidableAnd _ _ _ (ih _)
      · exact ih _

/-- None of these calls ends a transaction on the connection. -/
def LeaveOpen (home : Connection) (cs : List OtherCall) : Prop :=
  ∀ c ∈ cs, c.conn = home → c.use.endsTransaction = false

instance (home : Connection) (cs : List OtherCall) : Decidable (LeaveOpen home cs) :=
  inferInstanceAs (Decidable (∀ c ∈ cs, _))

theorem interleave_append (others : Nat → List OtherCall) (n : Nat) (sends sends' : List Send) :
    interleave others n (sends ++ sends') =
      interleave others n sends ++ interleave others (n + sends.length) sends' := by
  induction sends generalizing n with
  | nil => simp [interleave]
  | cons s sends ih =>
    have hshift : n + 1 + sends.length = n + (sends.length + 1) := by omega
    simp [interleave, ih, hshift]

section Others

variable {others : Nat → List OtherCall}

theorem inTransaction_others_none (cs : List OtherCall) (ts : List Traffic) :
    InTransaction none (cs.map .other ++ ts) ↔ InTransaction none ts := by
  induction cs with
  | nil => rfl
  | cons c cs ih =>
    have hc : afterOther none c = none := by simp [afterOther]
    simpa [InTransaction, hc] using ih

theorem inTransaction_others {home : Connection} (cs : List OtherCall) (ts : List Traffic) :
    InTransaction (some home) (cs.map .other ++ ts) ↔
      InTransaction (if LeaveOpen home cs then some home else none) ts := by
  induction cs with
  | nil => simp [LeaveOpen]
  | cons c cs ih =>
    have hcons : LeaveOpen home (c :: cs) ↔
        (c.conn = home → c.use.endsTransaction = false) ∧ LeaveOpen home cs := by
      simp [LeaveOpen]
    by_cases hc : c.use.endsTransaction = true ∧ some home = some c.conn
    · have hends : ¬ LeaveOpen home (c :: cs) := fun h => by
        have hfalse := (hcons.mp h).1 (Option.some.inj hc.2).symm
        rw [hc.1] at hfalse
        cases hfalse
      rw [if_neg hends]
      simpa [InTransaction, afterOther, hc] using inTransaction_others_none cs ts
    · have hhead : c.conn = home → c.use.endsTransaction = false := fun hconn => by
        simpa [hconn] using hc
      have hsame : LeaveOpen home (c :: cs) ↔ LeaveOpen home cs := hcons.trans (and_iff_right hhead)
      have hstays : afterOther (some home) c = some home := if_neg (hc ∘ And.imp_right id)
      simp only [hsame, ← ih, List.map_cons, List.cons_append, InTransaction, hstays]

/-- A send that must be in the transaction: an accepted command or an EXEC. -/
def Send.Bound (s : Send) : Prop := s.purpose = .exec ∨ s.purpose = .command ∧ s.ok = true

theorem inTransaction_own {opened : Option Connection} {n : Nat} {s : Send} {ts : List Traffic}
    (hs : s.purpose ≠ .multi) : InTransaction opened (.own n s :: ts) ↔
      (s.Bound → opened = some s.conn) ∧ InTransaction opened ts := by
  cases hp : s.purpose <;> simp_all [InTransaction, Send.Bound]

theorem inTransaction_none_sends {n : Nat} {sends : List Send}
    (hs : ∀ s ∈ sends, s.purpose ≠ .multi) :
    InTransaction none (interleave others n sends) ↔ ∀ s ∈ sends, ¬ s.Bound := by
  induction sends generalizing n with
  | nil => simp [interleave, InTransaction]
  | cons s sends ih =>
    obtain ⟨hhead, htail⟩ := List.forall_mem_cons.mp hs
    rw [interleave, inTransaction_others_none, inTransaction_own hhead, ih htail]
    simp

/-- Without a further MULTI the sends that must be in the transaction are so as long as they go
to its connection and nobody else has ended it. -/
theorem inTransaction_sends {n : Nat} {home : Connection} {sends : List Send}
    (hs : ∀ s ∈ sends, s.purpose ≠ .multi) :
    InTransaction (some home) (interleave others n sends) ↔
      ∀ (i : Nat) s, sends[i]? = some s → s.Bound →
        s.conn = home ∧ ∀ k ≤ i, LeaveOpen home (others (n + k)) := by
  induction sends generalizing n with
  | nil => simp [interleave, InTransaction]
  | cons s sends ih =>
    obtain ⟨hhead, htail⟩ := List.forall_mem_cons.mp hs
    rw [interleave, inTransaction_others]
    by_cases hkept : LeaveOpen home (others n)
    · rw [if_pos hkept, inTransaction_own hhead, ih htail]
      constructor
      · rintro ⟨hfirst, hrest⟩ i x hx hbound
        cases i with
        | zero =>
          obtain rfl : s = x := by simpa using hx
          refine ⟨(Option.some.inj (hfirst hbound)).symm, fun k hk => ?_⟩
          obtain rfl := Nat.le_zero.mp hk
          exact hkept
        | succ i =>
          obtain ⟨hconn, hleft⟩ := hrest i x (by simpa using hx) hbound
          refine ⟨hconn, fun k hk => ?_⟩
          cases k with
          | zero => exact hkept
          | succ k =>
            have hshift : n + 1 + k = n + (k + 1) := by omega
            exact hshift ▸ hleft k (by omega)
      · intro h
        refine ⟨fun hbound => congrArg some (h 0 s rfl hbound).1.symm, fun i x hx hbound => ?_⟩
        obtain ⟨hconn, hleft⟩ := h (i + 1) x (by simpa using hx) hbound
        refine ⟨hconn, fun k hk => ?_⟩
        have hshift : n + 1 + k = n + (k + 1) := by omega
        exact hshift ▸ hleft (k + 1) (by omega)
    · rw [if_neg hkept, inTransaction_own hhead, inTransaction_none_sends htail]
      constructor
      · rintro ⟨hfirst, hrest⟩ i x hx hbound
        exfalso
        cases i with
        | zero =>
          obtain rfl : s = x := by simpa using hx
          cases hfirst hbound
        | succ i => exact hrest x (List.mem_of_getElem? (by simpa using hx)) hbound
      · intro h
        refine ⟨fun hbound => absurd ((h 0 s rfl hbound).2 0 (Nat.le_refl 0)) hkept,
          fun x hx hbound => ?_⟩
        obtain ⟨i, hi⟩ := List.mem_iff_getElem?.mp hx
        exact hkept ((h (i + 1) x (by simpa using hi) hbound).2 0 (Nat.zero_le _))

end Others

end Redisson

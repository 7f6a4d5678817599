import Redisson.AddressedMachines

/-! A server whose connections may collect requests and have them executed together. However
the messages of the connections arrive, the requests of a transaction run as one block. -/

namespace ServerTransactions

open AddressedMachines

variable {κ σ ρ α : Type*}

inductive Message (ρ : Type*)
  | multi
  | request (r : ρ)
  | exec

/-- What a connection has collected since its MULTI, and whether no request was refused. -/
structure Collected (ρ : Type*) where
  requests : List ρ
  clean : Bool

structure State (κ σ ρ : Type*) where
  store : σ
  collected : κ → Option (Collected ρ)

inductive Answer (α : Type*)
  | opened
  | nested
  | queued
  | refused
  | done (a : α)
  | executed (as : List α)
  | aborted
  | withoutMulti

section Server

variable [DecidableEq κ] (run : σ → ρ → σ × α) (accepts : ρ → Bool)

def State.collect (s : State κ σ ρ) (k : κ) (c : Option (Collected ρ)) : State κ σ ρ :=
  { s with collected := Function.update s.collected k c }

def Collected.take (c : Collected ρ) (r : ρ) : Collected ρ :=
  if accepts r then { c with requests := c.requests ++ [r] } else { c with clean := false }

def step (s : State κ σ ρ) (m : κ × Message ρ) : State κ σ ρ × Answer α :=
  match m.2, s.collected m.1 with
  | .multi, none => (s.collect m.1 (some ⟨[], true⟩), .opened)
  | .multi, some _ => (s, .nested)
  | .request r, none => ({ s with store := (run s.store r).1 }, .done (run s.store r).2)
  | .request r, some c =>
    (s.collect m.1 (some (c.take accepts r)), if accepts r then .queued else .refused)
  | .exec, none => (s, .withoutMulti)
  | .exec, some c =>
    if c.clean then
      ({ s.collect m.1 none with store := after run s.store c.requests },
        .executed (answers run s.store c.requests))
    else (s.collect m.1 none, .aborted)

/-- The messages of the other connections. -/
def without (k : κ) (w : List (κ × Message ρ)) : List (κ × Message ρ) := w.filter (·.1 ≠ k)

/-- EXEC after the requests `rs`, as one step. -/
def execute (st : σ) (rs : List ρ) : σ × Answer α :=
  if rs.all accepts then (after run st rs, .executed (answers run st rs)) else (st, .aborted)

def State.withStore (s : State κ σ ρ) (st : σ) : State κ σ ρ := { s with store := st }

variable {run accepts} {s : State κ σ ρ} {k j : κ} {c : Collected ρ} {u w : List (κ × Message ρ)}
  {rs : List ρ}

@[simp] theorem collect_store (x : Option (Collected ρ)) : (s.collect k x).store = s.store := rfl

@[simp] theorem collect_collected_self (x : Option (Collected ρ)) :
    (s.collect k x).collected k = x := by simp [State.collect]

theorem collect_collected_of_ne (x : Option (Collected ρ)) (h : j ≠ k) :
    (s.collect k x).collected j = s.collected j := by simp [State.collect, h]

@[simp] theorem collect_collect (x y : Option (Collected ρ)) :
    (s.collect k x).collect k y = s.collect k y := by simp [State.collect]

theorem collect_comm (x y : Option (Collected ρ)) (h : j ≠ k) :
    (s.collect k x).collect j y = (s.collect j y).collect k x := by
  simp [State.collect, Function.update_comm h]

theorem collect_self (x : Option (Collected ρ)) (h : s.collected k = x) : s.collect k x = s := by
  subst h
  simp [State.collect]

@[simp] theorem without_cons_self {m : Message ρ} : without k ((k, m) :: w) = without k w := by
  simp [without]

theorem without_cons_of_ne {m : Message ρ} (h : j ≠ k) :
    without k ((j, m) :: w) = (j, m) :: without k w := by simp [without, h]

/-- A message of another connection neither sees nor changes what `k` has collected. -/
theorem step_collect {q : κ × Message ρ} (x : Option (Collected ρ)) (h : q.1 ≠ k) :
    step run accepts (s.collect k x) q =
      ((step run accepts s q).1.collect k x, (step run accepts s q).2) := by
  obtain ⟨j, m⟩ := q
  have hj : (s.collect k x).collected j = s.collected j := collect_collected_of_ne x h
  cases m with
  | multi =>
    cases hc : s.collected j with
    | none => simp [step, hj, hc, collect_comm x _ h]
    | some c => simp [step, hj, hc]
  | request r =>
    cases hc : s.collected j with
    | none =>
      simp only [step, hj, hc, collect_store]
      rfl
    | some c => simp [step, hj, hc, collect_comm x _ h]
  | exec =>
    cases hc : s.collected j with
    | none => simp [step, hj, hc]
    | some c =>
      cases hclean : c.clean with
      | false => simp [step, hj, hc, hclean, collect_comm x _ h]
      | true =>
        simp only [step, hj, hc, hclean, if_true, collect_store, collect_comm x _ h]
        rfl

theorem step_collected_of_ne {q : κ × Message ρ} (h : q.1 ≠ k) :
    (step run accepts s q).1.collected k = s.collected k := by
  have hstep := @step_collect _ _ _ _ _ run accepts s k q (s.collected k) h
  rw [collect_self _ rfl] at hstep
  rw [hstep, collect_collected_self]

variable (run accepts)

theorem after_collect (s : State κ σ ρ) (x : Option (Collected ρ)) (hw : requestsAt k w = []) :
    after (step run accepts) (s.collect k x) w = (after (step run accepts) s w).collect k x ∧
      ∀ j, answersAt (step run accepts) (s.collect k x) w j =
        answersAt (step run accepts) s w j := by
  induction w generalizing s with
  | nil => exact ⟨rfl, fun _ => rfl⟩
  | cons q w ih =>
    obtain ⟨i, m⟩ := q
    have hi : i ≠ k := by
      rintro rfl
      simp [requestsAt_cons_self] at hw
    rw [requestsAt_cons_of_ne hi] at hw
    obtain ⟨hafter, hanswers⟩ := @ih (step run accepts s (i, m)).1 hw
    have hstep := @step_collect _ _ _ _ _ run accepts s k (i, m) x hi
    refine ⟨by rw [after, hstep, hafter, after], fun j => ?_⟩
    by_cases hj : i = j
    · subst hj
      rw [answersAt_cons_self, answersAt_cons_self, hstep, hanswers]
    · rw [answersAt_cons_of_ne hj, answersAt_cons_of_ne hj, hstep, hanswers]

theorem requestsAt_without : requestsAt k (without k w) = [] := by
  simp [requestsAt, without]

/-- Until EXEC the messages of a connection in a transaction only add to what it has
collected; to the others it is as if they had not been sent. -/
theorem quiet (hc : s.collected k = some c) (hu : requestsAt k u = rs.map .request) :
    after (step run accepts) s u =
        (after (step run accepts) s (without k u)).collect k (some (rs.foldl (.take accepts) c)) ∧
      answersAt (step run accepts) s u k =
        rs.map (fun r => if accepts r then .queued else .refused) ∧
      ∀ j, j ≠ k → answersAt (step run accepts) s u j =
        answersAt (step run accepts) s (without k u) j := by
  induction u generalizing s c rs with
  | nil =>
    obtain rfl : rs = [] := by simpa [requestsAt] using hu
    exact ⟨(collect_self _ hc).symm, rfl, fun _ _ => rfl⟩
  | cons q u ih =>
    obtain ⟨j, m⟩ := q
    by_cases h : j = k
    · subst h
      rw [requestsAt_cons_self] at hu
      cases rs with
      | nil => simp at hu
      | cons r rs =>
        obtain ⟨rfl, hrs⟩ := List.cons.inj hu
        have hstep : step run accepts s (j, .request r) = (s.collect j (some (c.take accepts r)),
            if accepts r then .queued else .refused) := by simp only [step, hc]
        obtain ⟨hafter, hanswers, hothers⟩ :=
          ih (collect_collected_self (some (c.take accepts r))) hrs
        obtain ⟨hdrop, hsame⟩ := after_collect run accepts s
          (some (c.take accepts r)) (requestsAt_without (k := j) (w := u))
        refine ⟨?_, ?_, fun i hi => ?_⟩
        · rw [after, hstep, hafter, without_cons_self, hdrop, collect_collect]
          rfl
        · rw [answersAt_cons_self, hstep, hanswers]
          rfl
        · rw [answersAt_cons_of_ne (Ne.symm hi), hstep, hothers i hi, hsame,
            without_cons_self]
    · rw [requestsAt_cons_of_ne h] at hu
      have hc' : (step run accepts s (j, m)).1.collected k = some c := by
        rw [step_collected_of_ne (q := (j, m)) h, hc]
      obtain ⟨hafter, hanswers, hothers⟩ := ih hc' hu
      rw [without_cons_of_ne h]
      refine ⟨hafter, ?_, fun i hi => ?_⟩
      · rw [answersAt_cons_of_ne h, hanswers]
      · by_cases hij : j = i
        · subst hij
          rw [answersAt_cons_self, answersAt_cons_self, hothers j hi]
        · rw [answersAt_cons_of_ne hij, answersAt_cons_of_ne hij,
            hothers i hi]

theorem foldl_take (rs : List ρ) (c : Collected ρ) : rs.foldl (.take accepts) c =
    ⟨c.requests ++ rs.filter accepts, c.clean && rs.all accepts⟩ := by
  induction rs generalizing c with
  | nil => simp
  | cons r rs ih => cases hr : accepts r <;> simp [ih, Collected.take, hr]

theorem without_eq_self (h : requestsAt k w = []) : without k w = w := by
  refine List.filter_eq_self.mpr fun q hq => ?_
  by_contra hne
  have hmem : q.2 ∈ requestsAt k w :=
    List.mem_map_of_mem (List.mem_filter.mpr ⟨hq, by simpa using hne⟩)
  simp [h] at hmem

theorem after_collected (hw : requestsAt k w = []) :
    (after (step run accepts) s w).collected k = s.collected k := by
  have hafter := (after_collect run accepts s (s.collected k) hw).1
  rw [collect_self _ rfl] at hafter
  rw [hafter, collect_collected_self]

/-- From MULTI to EXEC, a transaction only collects. -/
theorem opening (hc : s.collected k = none)
    (hu : requestsAt k u = .multi :: rs.map .request) :
    after (step run accepts) s u = (after (step run accepts) s (without k u)).collect k
        (some ⟨rs.filter accepts, rs.all accepts⟩) ∧
      answersAt (step run accepts) s u k =
        .opened :: rs.map (fun r => if accepts r then .queued else .refused) ∧
      ∀ j, j ≠ k → answersAt (step run accepts) s u j =
        answersAt (step run accepts) s (without k u) j := by
  obtain ⟨before, u, rfl, hbefore, hu⟩ := @exists_split _ _ _ _ _ _ [] _ hu
  have hopen : step run accepts (after (step run accepts) s before) (k, .multi) =
      ((after (step run accepts) s before).collect k (some ⟨[], true⟩), .opened) := by
    simp only [step, after_collected run accepts hbefore, hc]
  have hwithout : without k (before ++ (k, .multi) :: u) = before ++ without k u := by
    rw [without, List.filter_append, ← without, ← without, without_eq_self hbefore,
      without_cons_self]
  obtain ⟨hafter, hanswers, hothers⟩ := quiet run accepts
    (collect_collected_self (s := after (step run accepts) s before) (some ⟨[], true⟩)) hu
  obtain ⟨hdrop, hsame⟩ := after_collect run accepts
    (after (step run accepts) s before) (some ⟨[], true⟩) (requestsAt_without (k := k) (w := u))
  rw [hwithout]
  refine ⟨?_, ?_, fun j hj => ?_⟩
  · rw [after_append, after, hopen, hafter, hdrop, collect_collect, foldl_take, after_append]
    simp
  · rw [answersAt_append, answersAt_eq_nil hbefore, answersAt_cons_self, hopen, hanswers]
    rfl
  · rw [answersAt_append, answersAt_append, answersAt_cons_of_ne hj.symm, hopen, hothers j hj, hsame]

/-- The answers to the messages of a transaction so far. -/
theorem opening_answers {ms : List (Message ρ)} (hc : s.collected k = none)
    (hw : requestsAt k w = (.multi :: rs.map .request) ++ ms) :
    ∃ later, answersAt (step run accepts) s w k =
      (.opened :: rs.map fun r => if accepts r then .queued else .refused) ++ later := by
  cases ms with
  | nil =>
    rw [List.append_nil] at hw
    exact ⟨[], by rw [(opening run accepts hc hw).2.1, List.append_nil]⟩
  | cons m ms =>
    obtain ⟨u, v, rfl, hu, -⟩ := exists_split hw
    exact ⟨_, by rw [answersAt_append, (opening run accepts hc hu).2.1]⟩

/-- However the messages of the other connections fall between those of a transaction, the
server and every connection see it as one step, taken when EXEC arrives. -/
theorem transaction_isolated {tail : List (Message ρ)} (hc : s.collected k = none)
    (hw : requestsAt k w = (.multi :: rs.map .request) ++ .exec :: tail) :
    ∃ u v, w = u ++ (k, .exec) :: v ∧ requestsAt k v = tail ∧
      let before := after (step run accepts) s (without k u)
      let executed := execute run accepts before.store rs
      after (step run accepts) s w = after (step run accepts) (before.withStore executed.1) v ∧
      answersAt (step run accepts) s w k =
        (.opened :: rs.map fun r => if accepts r then .queued else .refused) ++
          executed.2 :: answersAt (step run accepts) (before.withStore executed.1) v k ∧
      ∀ j, j ≠ k → answersAt (step run accepts) s w j =
        answersAt (step run accepts) s (without k u) j ++
          answersAt (step run accepts) (before.withStore executed.1) v j := by
  obtain ⟨u, v, rfl, hu, hv⟩ := exists_split hw
  refine ⟨u, v, rfl, hv, ?_⟩
  obtain ⟨hafter, hanswers, hothers⟩ := opening run accepts hc hu
  have hidle : (after (step run accepts) s (without k u)).collected k = none :=
    (after_collected run accepts requestsAt_without).trans hc
  have hexec : step run accepts (after (step run accepts) s u) (k, .exec) =
      ((after (step run accepts) s (without k u)).withStore
        (execute run accepts (after (step run accepts) s (without k u)).store rs).1,
      (execute run accepts (after (step run accepts) s (without k u)).store rs).2) := by
    rw [hafter]
    simp only [step, collect_collected_self, collect_collect, collect_self _ hidle, collect_store,
      execute]
    by_cases hall : rs.all accepts = true
    · rw [if_pos hall, if_pos hall, List.filter_eq_self.mpr (by simpa using hall)]
      rfl
    · rw [if_neg hall, if_neg hall]
      rfl
  refine ⟨?_, ?_, fun j hj => ?_⟩
  · rw [after_append, after, hexec]
  · rw [answersAt_append, hanswers, answersAt_cons_self, hexec]
  · rw [answersAt_append, answersAt_cons_of_ne hj.symm, hexec, hothers j hj]

end Server

end ServerTransactions

import Redisson.AtMostOnce

/-! In which order `BatchResult` lists the responses. It goes by the indexes, which `async0`
takes before it waits for the lock of the queue; Redis goes by the queue. -/

namespace Redisson

open LabelledRuns

/-- The index of a call that has taken one and is not queued yet. -/
def Caller.Outstanding : Caller → Nat → Prop
  | .indexed i, j | .sending i, j => i = j
  | .idle, _ | .waiting _, _ | .resolved _, _ => False

theorem Caller.Outstanding.holds {x : Caller} {i : Nat} (h : x.Outstanding i) : x.Holds i := by
  cases x with
  | indexed j | sending j => exact h
  | idle | waiting j | resolved r => exact h.elim

namespace BatchState

/-- The lock is only taken by the call with the lowest index of those not queued yet. -/
def TakesTurns (s : BatchState) : BatchEvent → Prop
  | .push c | .lockQueue c =>
    ∀ i, s.callers c = .indexed i → ∀ c' j, (s.callers c').Outstanding j → i ≤ j
  | _ => True

structure InTurn (s : BatchState) : Prop where
  sorted : (s.queue.map Pending.index).Pairwise (· < ·)
  ahead : ∀ p ∈ s.queue, ∀ c j, (s.callers c).Outstanding j → p.index < j
  lowest : ∀ c i, s.callers c = .sending i → ∀ c' j, (s.callers c').Outstanding j → i ≤ j

theorem inTurn_new : new.InTurn := by
  constructor <;> simp [new]

section Turns

variable {s s' : BatchState} {c i : Nat} {x : Caller}

theorem outstanding_update {c' j : Nat}
    (h : (Function.update s.callers c x c').Outstanding j) :
    c' = c ∧ x.Outstanding j ∨ c' ≠ c ∧ (s.callers c').Outstanding j := by
  by_cases heq : c' = c
  · rw [heq, Function.update_self] at h
    exact .inl ⟨heq, h⟩
  · rw [Function.update_of_ne heq] at h
    exact .inr ⟨heq, h⟩

theorem sending_update {c' j : Nat} (hx : ∀ k, x ≠ .sending k)
    (h : Function.update s.callers c x c' = .sending j) : s.callers c' = .sending j := by
  by_cases heq : c' = c
  · rw [heq, Function.update_self] at h
    exact absurd h (hx j)
  · rwa [Function.update_of_ne heq] at h

theorem InTurn.of_fewer (hs : s.InTurn) (hqueue : s'.queue.Sublist s.queue)
    (hcall : ∀ c j, (s'.callers c).Outstanding j → (s.callers c).Outstanding j)
    (hsend : ∀ c i, s'.callers c = .sending i → s.callers c = .sending i) : s'.InTurn := by
  constructor
  · exact hs.sorted.sublist (hqueue.map _)
  · exact fun p hp c j hj => hs.ahead p (hqueue.subset hp) c j (hcall c j hj)
  · exact fun c i hi c' j hj => hs.lowest c i (hsend c i hi) c' j (hcall c' j hj)

theorem InTurn.fetchIndex (hs : s.InTurn) (hsound : s.Sound) (hnumbered : s.Numbered) :
    ({ s.setCaller c (.indexed s.nextIndex) with nextIndex := s.nextIndex + 1 } :
      BatchState).InTurn := by
  constructor
  · exact hs.sorted
  · intro p hp c' j hj
    rcases outstanding_update hj with ⟨-, rfl⟩ | ⟨-, hj⟩
    · have hw := hsound.queue_waiting p hp
      exact hnumbered.below p.caller p.index (by simp [hw, Caller.Holds])
    · exact hs.ahead p hp c' j hj
  · intro c₁ i hi c' j hj
    have hold : s.callers c₁ = .sending i := sending_update (by simp) hi
    rcases outstanding_update hj with ⟨-, rfl⟩ | ⟨-, hj⟩
    · exact (hnumbered.below c₁ i (by simp [hold, Caller.Holds])).le
    · exact hs.lowest c₁ i hold c' j hj

theorem InTurn.enqueue (hs : s.InTurn) (hnumbered : s.Numbered)
    (hi : (s.callers c).Outstanding i)
    (hturn : ∀ c' j, (s.callers c').Outstanding j → i ≤ j) : (s.enqueue c i).InTurn := by
  have hothers : ∀ c' j, (Function.update s.callers c (.waiting i) c').Outstanding j →
      c' ≠ c ∧ (s.callers c').Outstanding j :=
    fun _ _ hj => (outstanding_update hj).resolve_left fun hh => hh.2
  constructor
  · simp only [BatchState.enqueue, List.map_append, List.map_cons, List.map_nil]
    refine List.pairwise_append.mpr ⟨hs.sorted, List.pairwise_singleton _ _, ?_⟩
    intro a ha b hb
    obtain ⟨p, hp, rfl⟩ := List.mem_map.mp ha
    rw [List.mem_singleton.mp hb]
    exact hs.ahead p hp c i hi
  · intro p hp c' j hj
    obtain ⟨hne, hj⟩ := hothers c' j hj
    rcases List.mem_append.mp hp with hp | hp
    · exact hs.ahead p hp c' j hj
    · have hle := hturn c' j hj
      have hij : i ≠ j := by
        rintro rfl
        exact hne (hnumbered.own c' c i hj.holds hi.holds)
      rw [List.mem_singleton.mp hp]
      exact lt_of_le_of_ne hle hij
  · intro c₁ k hk c' j hj
    exact hs.lowest c₁ k (sending_update (by simp) hk) c' j (hothers c' j hj).2

theorem InTurn.resolve {r : Reply} (hs : s.InTurn) (hqueue : s'.queue.Sublist s.queue)
    (hcall : s'.callers = Function.update s.callers c (.resolved r)) : s'.InTurn := by
  refine hs.of_fewer hqueue (fun c' j hj => ?_) (fun c' j hj => ?_)
  · rw [hcall] at hj
    exact ((outstanding_update hj).resolve_left fun hh => hh.2).2
  · rw [hcall] at hj
    exact sending_update (by simp) hj

theorem InTurn.step {kind : QueueKind} {e : BatchEvent} (hs : s.InTurn) (hsound : s.Sound)
    (hnumbered : s.Numbered) (hturn : s.TakesTurns e) (h : BatchStep kind s e s') : s'.InTurn := by
  cases h with
  | fetchIndex hc => exact hs.fetchIndex hsound hnumbered
  | push hk hc hl => exact hs.enqueue hnumbered (by simp [hc, Caller.Outstanding]) (hturn _ hc)
  | @lockQueue c i hk hc hl =>
    have hsame : ∀ c' j, (Function.update s.callers c (.sending i) c').Outstanding j →
        (s.callers c').Outstanding j := by
      intro c' j hj
      rcases outstanding_update hj with ⟨heq, hj⟩ | ⟨-, hj⟩
      · rw [heq, hc]
        exact hj
      · exact hj
    constructor
    · exact hs.sorted
    · exact fun p hp c' j hj => hs.ahead p hp c' j (hsame c' j hj)
    · intro c₁ k hk₁ c' j hj
      by_cases heq : c₁ = c
      · obtain rfl : i = k := by simpa [setCaller, heq] using hk₁
        exact hturn i hc c' j (hsame c' j hj)
      · have hold : s.callers c₁ = .sending k := by simpa [setCaller, heq] using hk₁
        exact hs.lowest c₁ k hold c' j (hsame c' j hj)
  | refuse hc => exact hs.resolve (List.Sublist.refl _) rfl
  | @enqueue c i hc =>
    have hi : (s.callers c).Outstanding i := by simp [hc, Caller.Outstanding]
    have hh := hs.enqueue hnumbered hi (hs.lowest c i hc)
    exact hh.of_fewer (List.Sublist.refl _) (fun _ _ h => h) (fun _ _ h => h)
  | settle hc => exact hs.resolve (List.Sublist.refl _) rfl
  | discard ht hl =>
    refine hs.of_fewer (List.nil_sublist _) (fun c j hj => ?_) (fun c j hj => ?_)
    · by_cases hm : c ∈ s.queue.map Pending.caller
      · simp only [discardAll, setTerminal, if_pos hm, Caller.Outstanding] at hj
      · simpa only [discardAll, setTerminal, if_neg hm] using hj
    · by_cases hm : c ∈ s.queue.map Pending.caller
      · simp only [discardAll, setTerminal, if_pos hm, reduceCtorEq] at hj
      · simpa only [discardAll, setTerminal, if_neg hm] using hj
  | lose | win | drainEmpty | timeOut | finish =>
    exact hs.of_fewer (List.Sublist.refl _) (fun _ _ h => h) (fun _ _ h => h)
  | drain ht hl hq => exact hs.of_fewer (List.nil_sublist _) (fun _ _ h => h) (fun _ _ h => h)

end Turns

theorem inTurn_of_run {kind : QueueKind} {events : List BatchEvent} {s : BatchState}
    (h : GuardedRun (batchStep kind) TakesTurns new events s) : s.InTurn := by
  have hkeep : ∀ (s : BatchState) e s', s.Sound ∧ s.Numbered ∧ s.InTurn → s.TakesTurns e →
      batchStep kind s e = some s' → s'.Sound ∧ s'.Numbered ∧ s'.InTurn := by
    intro s e s' ⟨hsound, hnumbered, hs⟩ hturn hm
    have hstep := BatchStep.of_step hm
    exact ⟨hsound.step hstep, hnumbered.step hsound hstep, hs.step hsound hnumbered hturn hstep⟩
  exact (GuardedRun.invariant hkeep ⟨sound_new, numbered_new, inTurn_new⟩ h).2.2

end BatchState

/-! Responses that are sorted by index are in the order of the calls exactly as far as the
indexes increase along the calls. -/

/-- Of two commands that were queued for a node one after the other, the first has the first
entry. Redis executes them in that order where both are routed to that node. -/
def ListedInSendOrder (sent : List Nat) (indexed : List (Nat × Value)) : Prop :=
  ∀ (x y a b : Nat) (p p' : Nat × Value), x < y → sent[x]? = some p.1 → sent[y]? = some p'.1 →
    indexed[a]? = some p → indexed[b]? = some p' → a < b

theorem listedInSendOrder_of_sorted {sent : List Nat} (h : sent.Pairwise (· < ·))
    (indexed : List (Nat × Value)) :
    ListedInSendOrder sent (indexed.mergeSort fun a b => a.1 ≤ b.1) := by
  intro x y a b p p' hxy hx hy ha hb
  obtain ⟨hxlen, hx⟩ := List.getElem?_eq_some_iff.mp hx
  obtain ⟨hylen, hy⟩ := List.getElem?_eq_some_iff.mp hy
  obtain ⟨halen, ha⟩ := List.getElem?_eq_some_iff.mp ha
  obtain ⟨hblen, hb⟩ := List.getElem?_eq_some_iff.mp hb
  have hindex : p.1 < p'.1 := by
    rw [← hx, ← hy]
    exact List.pairwise_iff_getElem.mp h x y hxlen hylen hxy
  have hsorted : (indexed.mergeSort fun a b => a.1 ≤ b.1).Pairwise
      fun a b => decide (a.1 ≤ b.1) = true := by
    refine List.pairwise_mergeSort (fun a b c => ?_) (fun a b => ?_) indexed
    · simp only [decide_eq_true_eq]
      exact Nat.le_trans
    · simpa using Nat.le_total a.1 b.1
  by_contra hle
  have hba : p'.1 ≤ p.1 := by
    rcases Nat.lt_or_eq_of_le (Nat.not_lt.mp hle) with hlt | heq
    · rw [← ha, ← hb]
      simpa using List.pairwise_iff_getElem.mp hsorted b a hblen halen hlt
    · subst heq
      rw [← ha, ← hb]
  omega

section Responses

variable {sha1 : String → String} {svc : BatchService}

theorem prepare_indexes_sublist {env : Environment sha1} {q : Queue} {groups : List Group}
    (hp : prepare svc env q = .ok groups) {g : Group} (hg : g ∈ groups) :
    g.indexes.Sublist (q.entries.map BatchCommandData.index) := by
  have hsub := (prepare_sublist hp hg).map BatchCommandData.index
  simp only [List.map_map, Function.comp_def, BatchCommandData.loaded_index] at hsub
  exact hsub

/-- The responses of an in-memory execution, with the index each of them is listed under. -/
theorem executeFates_responses {env : Environment sha1} {fate : Group → TaskFate} {q : Queue}
    {sched : Schedule} {groups : List Group} {r : BatchResult} (hq : q.entries ≠ [])
    (hp : prepare svc env q = .ok groups)
    (hr : (executeFates svc env fate q sched).result = .ok r) :
    r.responses = (((sched.order groups).flatMap fun g =>
      (g.runFate svc env.debug (fate g)).indexed).mergeSort fun a b => a.1 ≤ b.1).map Prod.snd := by
  rw [executeFates_ok hq hp] at hr
  by_cases hfail : ∃ g ∈ groups, Group.Fails svc (fate g)
  · obtain ⟨e, he⟩ := @runFates_error _ svc env fate groups sched hfail
    rw [he] at hr
    cases hr
  · obtain ⟨s, hok⟩ := @runFates_ok _ svc env fate groups sched fun g hg hf => hfail ⟨g, hg, hf⟩
    rw [hok] at hr
    cases hr
    rfl

theorem executeRedisBasedQueue_responses {env : PoolEnvironment} {timeout : String}
    {timesOut : Option AwaitPoint} {b : RedisBased} {r : BatchResult}
    (hr : (executeRedisBasedQueue svc env timeout timesOut b).result = .ok r) :
    r.responses = [] ∨ ∃ actual, env.reply b.picks = .ok (.array actual) ∧
      r.responses = ((b.entries.zip actual).mergeSort fun a b => a.1 ≤ b.1).map Prod.snd := by
  cases timesOut with
  | some point => cases hr
  | none =>
    simp only [executeRedisBasedQueue, executeInner] at hr
    split at hr
    · cases hr
      exact .inl rfl
    · split at hr
      · cases hr
        exact .inl rfl
      · split at hr
        · next actual hactual =>
          cases hr
          exact .inr ⟨actual, hactual, rfl⟩
        · cases hr
          exact .inl rfl
        · cases hr
        · cases hr
          exact .inl rfl

end Responses

/-- The indexes increase along the queue, and whatever batch has this queue, its responses are
listed as the commands were sent: those of each node group, and those between MULTI and EXEC. -/
structure ResponseOrder (s : BatchState) : Prop where
  queue : (s.queue.map Pending.index).Pairwise (· < ·)
  inMemory : ∀ (sha1 : String → String) (svc : BatchService) (x : Execution sha1)
    (groups : List Group) (r : BatchResult),
    x.queue.entries.map BatchCommandData.index = s.queue.map Pending.index →
    prepare svc x.env x.queue = .ok groups →
    (executeFates svc x.env x.fate x.queue x.sched).result = .ok r →
    ∃ indexed, r.responses = indexed.map Prod.snd ∧
      (∀ p ∈ indexed, ∃ g ∈ groups, p ∈ (g.runFate svc x.env.debug (x.fate g)).indexed) ∧
      ∀ g ∈ groups, ListedInSendOrder g.indexes indexed
  redisBased : ∀ (svc : BatchService) (env : PoolEnvironment) (timeout : String)
    (timesOut : Option AwaitPoint) (b : RedisBased) (r : BatchResult),
    b.entries = s.queue.map Pending.index →
    (executeRedisBasedQueue svc env timeout timesOut b).result = .ok r →
    ∃ indexed, r.responses = indexed.map Prod.snd ∧
      (∀ p ∈ indexed, ∃ actual, env.reply b.picks = .ok (.array actual) ∧
        p ∈ b.entries.zip actual) ∧
      ListedInSendOrder b.entries indexed

theorem listedInSendOrder_nil (sent : List Nat) : ListedInSendOrder sent [] := by
  intro x y a b p p' hxy hx hy ha hb
  cases ha

theorem responseOrder_of_sorted {s : BatchState}
    (h : (s.queue.map Pending.index).Pairwise (· < ·)) : ResponseOrder s := by
  refine ⟨h, ?_, ?_⟩
  · intro sha1 svc x groups r hindexes hp hr
    by_cases hq : x.queue.entries = []
    · have hempty : r.responses = [] := by
        simp only [executeFates, hq, List.isEmpty_nil, if_true, Except.ok.injEq] at hr
        rw [← hr]
      exact ⟨[], hempty, by simp, fun g _ => listedInSendOrder_nil _⟩
    · refine ⟨_, executeFates_responses hq hp hr, fun p hp' => ?_, fun g hg => ?_⟩
      · obtain ⟨g, hg, hmem⟩ := List.mem_flatMap.mp (List.mem_mergeSort.mp hp')
        exact ⟨g, (x.sched.order_perm groups).mem_iff.mp hg, hmem⟩
      · have hsorted := hindexes ▸ h
        exact listedInSendOrder_of_sorted (hsorted.sublist (prepare_indexes_sublist hp hg)) _
  · intro svc env timeout timesOut b r hentries hr
    rcases executeRedisBasedQueue_responses hr with hempty | ⟨actual, hactual, hresponses⟩
    · exact ⟨[], hempty, by simp, listedInSendOrder_nil _⟩
    · refine ⟨_, hresponses, fun p hp => ⟨actual, hactual, List.mem_mergeSort.mp hp⟩, ?_⟩
      exact listedInSendOrder_of_sorted (hentries ▸ h) _

/-- While the calls queue in the order of their indexes, every state reached has the responses
in the order of sending. -/
theorem responseOrder_of_turns {kind : QueueKind} {events : List BatchEvent} {s : BatchState}
    (h : GuardedRun (batchStep kind) BatchState.TakesTurns .new events s) : ResponseOrder s :=
  responseOrder_of_sorted (BatchState.inTurn_of_run h).sorted

theorem responseOrder_two_calls : ∃ s,
    run (batchStep .inMemory) .new [.fetchIndex 0, .fetchIndex 1, .push 0, .push 1] = some s ∧
      s.queue = [⟨0, 0⟩, ⟨1, 1⟩] ∧ ResponseOrder s := by
  obtain ⟨s, hs, hq⟩ : ∃ s, GuardedRun (batchStep .inMemory) BatchState.TakesTurns .new
      [.fetchIndex 0, .fetchIndex 1, .push 0, .push 1] s ∧ s.queue = [⟨0, 0⟩, ⟨1, 1⟩] := by
    refine ⟨_, ⟨trivial, _, rfl, trivial, _, rfl, ?_, _, rfl, ?_, _, rfl, rfl⟩, rfl⟩
    · intro i hi c j hj
      cases hi
      exact Nat.zero_le j
    · intro i hi c j hj
      cases hi
      rcases BatchState.outstanding_update hj with ⟨-, hj⟩ | ⟨hc, hj⟩
      · exact hj.elim
      · rcases BatchState.outstanding_update hj with ⟨-, rfl⟩ | ⟨-, hj⟩
        · exact Nat.le_refl _
        · rcases BatchState.outstanding_update hj with ⟨rfl, -⟩ | ⟨-, hj⟩
          · exact absurd rfl hc
          · exact hj.elim
  exact ⟨s, hs.run_eq, hq, responseOrder_of_turns hs⟩

/-! Two calls that queue in the other order, on a node that answers each call with its place
in the pipeline. -/

def countingEnvironment : Environment fun _ => "" where
  keyslot _ := 12182
  topologyAt _ := ⟨none, [localServer]⟩
  iterate gs := gs
  iterate_perm := .refl
  caches := .empty
  loadReply _ := .ok .null
  enqueueError _ := none
  reply _ n := .ok (.integer n)
  debug _ := ""

def overtaken : Queue :=
  ⟨[⟨.hIncrBy (utf8Bytes "foo") (utf8Bytes "hits") 1, 1⟩,
    ⟨.hIncrBy (utf8Bytes "foo") (utf8Bytes "hits") 2, 0⟩], by decide⟩

theorem responses_out_of_order : ∃ s,
    run (batchStep .inMemory) .new [.fetchIndex 0, .fetchIndex 1, .push 1, .push 0] = some s ∧
      s.queue = [⟨1, 1⟩, ⟨0, 0⟩] ∧ ¬ ResponseOrder s ∧
      overtaken.entries.map BatchCommandData.index = s.queue.map Pending.index ∧
      (executeInMemory plainService countingEnvironment overtaken (.first 0)).result =
        .ok ⟨[.integer 1, .integer 0], 0⟩ := by
  refine ⟨_, rfl, rfl, fun h => ?_, rfl, ?_⟩
  · have hlt := h.queue
    revert hlt
    decide
  · have hsorted : ([(1, .integer 0), (0, .integer 1)] : List (Nat × Value)).mergeSort
        (fun a b => a.1 ≤ b.1) = [(0, .integer 1), (1, .integer 0)] := by
      simp [List.mergeSort, List.MergeSort.Internal.splitInTwo]
    have hresult := congrArg (fun l => (⟨l.map Prod.snd, 0⟩ : BatchResult)) hsorted
    exact congrArg Except.ok hresult

end Redisson

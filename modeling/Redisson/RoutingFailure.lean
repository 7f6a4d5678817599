import Redisson.BatchExecution
import Redisson.NodeIsolation
import Redisson.SingleSlotTransactions
import Redisson.TransactionIntegrity

/-! An in-memory batch whose commands cannot all be routed, or whose scripts cannot all be
loaded, sends nothing; one for which both succeed hands each command to one node. -/

namespace Redisson

section Routing

variable (topologyAt : Nat → Topology) (keyslot : Key → Slot) (retryAttempts : Nat)

/-- The routing table, asked once a try, names no node for the slot on any of the tries. -/
def Unresolvable (slot : Slot) (now : Nat) : Prop :=
  ∀ n ≤ retryAttempts, (topologyAt (now + n)).getWriteEntry slot = none

/-- It names `mse` on the `n`-th try, the first on which it names any. -/
def ResolvesTo (slot : Slot) (now : Nat) (mse : MasterSlaveEntry) (later : Nat) : Prop :=
  ∃ n ≤ retryAttempts, (∀ m < n, (topologyAt (now + m)).getWriteEntry slot = none) ∧
    (topologyAt (now + n)).getWriteEntry slot = some mse ∧ later = now + n + 1

/-- Some command finds no node for its slot, after those before it have found theirs. -/
def SomeUnresolvable : List BatchCommandData → Nat → Prop
  | [], _ => False
  | d :: ds, now => Unresolvable topologyAt retryAttempts (d.slot keyslot) now ∨
    ∃ mse later, ResolvesTo topologyAt retryAttempts (d.slot keyslot) now mse later ∧
      SomeUnresolvable ds later

def AllResolve : List BatchCommandData → Nat → Prop
  | [], _ => True
  | d :: ds, now => ∃ mse later,
    ResolvesTo topologyAt retryAttempts (d.slot keyslot) now mse later ∧ AllResolve ds later

end Routing

section Resolution

variable {topologyAt : Nat → Topology} {keyslot : Key → Slot} {retryAttempts : Nat}

theorem resolveLoop_spec (slot : Slot) (retries now : Nat) :
    (∃ mse n, n ≤ retries ∧ (∀ m < n, (topologyAt (now + m)).getWriteEntry slot = none) ∧
      (topologyAt (now + n)).getWriteEntry slot = some mse ∧
      resolveLoop topologyAt slot retries now = (some mse, now + n + 1)) ∨
    (∀ n ≤ retries, (topologyAt (now + n)).getWriteEntry slot = none) ∧
      resolveLoop topologyAt slot retries now = (none, now + retries + 1) := by
  induction retries generalizing now with
  | zero =>
    cases ht : (topologyAt now).getWriteEntry slot with
    | some mse => exact .inl ⟨mse, 0, Nat.le_refl 0, by simp, ht, by simp [resolveLoop, ht]⟩
    | none =>
      refine .inr ⟨fun n hn => ?_, by simp [resolveLoop, ht]⟩
      rw [Nat.le_zero.mp hn]
      exact ht
  | succ retries ih =>
    cases ht : (topologyAt now).getWriteEntry slot with
    | some mse => exact .inl ⟨mse, 0, Nat.zero_le _, by simp, ht, by simp [resolveLoop, ht]⟩
    | none =>
      have hfirst : ∀ {k : Nat}, (∀ m < k, (topologyAt (now + 1 + m)).getWriteEntry slot = none) →
          ∀ m < k + 1, (topologyAt (now + m)).getWriteEntry slot = none := by
        intro k hk m hm
        cases m with
        | zero => exact ht
        | succ m =>
          have hh := hk m (by omega)
          rwa [show now + (m + 1) = now + 1 + m by omega]
      rcases ih (now + 1) with ⟨mse, n, hn, hnone, hsome, hrun⟩ | ⟨hnone, hrun⟩
      · refine .inl ⟨mse, n + 1, by omega, hfirst hnone, ?_, ?_⟩
        · rwa [show now + (n + 1) = now + 1 + n by omega]
        · rw [resolveLoop, ht]
          simp only [hrun]
          congr 1
          omega
      · refine .inr ⟨fun n hn => hfirst (k := retries + 1) (fun m hm => hnone m (by omega)) n (by omega), ?_⟩
        rw [resolveLoop, ht]
        simp only [hrun]
        congr 1
        omega

theorem resolveEntry_spec (slot : Slot) (now : Nat) :
    (∃ mse later, ResolvesTo topologyAt retryAttempts slot now mse later ∧
      resolveEntry topologyAt retryAttempts slot now = (.ok mse, later)) ∨
    Unresolvable topologyAt retryAttempts slot now ∧
      ∃ e later, resolveEntry topologyAt retryAttempts slot now = (.error e, later) := by
  rcases resolveLoop_spec slot retryAttempts now with ⟨mse, n, hn, hnone, hsome, hrun⟩ | ⟨hnone, hrun⟩
  · exact .inl ⟨mse, now + n + 1, ⟨n, hn, hnone, hsome, rfl⟩, by simp [resolveEntry, hrun]⟩
  · refine .inr ⟨hnone, ?_⟩
    rw [resolveEntry, hrun]
    exact ⟨_, _, rfl⟩

theorem ResolvesTo.not_unresolvable {slot : Slot} {now later : Nat} {mse : MasterSlaveEntry}
    (h : ResolvesTo topologyAt retryAttempts slot now mse later) :
    ¬ Unresolvable topologyAt retryAttempts slot now := by
  obtain ⟨n, hn, -, hsome, -⟩ := h
  intro hno
  rw [hno n hn] at hsome
  cases hsome

theorem ResolvesTo.unique {slot : Slot} {now later later' : Nat} {mse mse' : MasterSlaveEntry}
    (h : ResolvesTo topologyAt retryAttempts slot now mse later)
    (h' : ResolvesTo topologyAt retryAttempts slot now mse' later') : mse = mse' ∧ later = later' := by
  obtain ⟨n, -, hnone, hsome, rfl⟩ := h
  obtain ⟨n', -, hnone', hsome', rfl⟩ := h'
  have hnn : n = n' := by
    rcases Nat.lt_trichotomy n n' with hlt | heq | hlt
    · rw [hnone' n hlt] at hsome
      cases hsome
    · exact heq
    · rw [hnone n' hlt] at hsome'
      cases hsome'
  subst hnn
  rw [hsome] at hsome'
  exact ⟨Option.some.inj hsome', rfl⟩

theorem groupEntries_spec (ds : List BatchCommandData) (now : Nat) (nodeMap : List Group) :
    (AllResolve topologyAt keyslot retryAttempts ds now ∧
      ∃ out, groupEntries topologyAt keyslot retryAttempts ds now nodeMap = .ok out) ∨
    (SomeUnresolvable topologyAt keyslot retryAttempts ds now ∧
      ∃ e, groupEntries topologyAt keyslot retryAttempts ds now nodeMap = .error e) := by
  induction ds generalizing now nodeMap with
  | nil => exact .inl ⟨trivial, nodeMap, rfl⟩
  | cons d ds ih =>
    rcases @resolveEntry_spec topologyAt retryAttempts (d.slot keyslot) now with
      ⟨mse, later, hto, hrun⟩ | ⟨hno, e, later, hrun⟩
    · rcases ih later (addToNode nodeMap mse d) with ⟨hall, out, hout⟩ | ⟨hsome, e, he⟩
      · exact .inl ⟨⟨mse, later, hto, hall⟩, out, by simp [groupEntries, hrun, hout]⟩
      · exact .inr ⟨.inr ⟨mse, later, hto, hsome⟩, e, by simp [groupEntries, hrun, he]⟩
    · exact .inr ⟨.inl hno, e, by simp [groupEntries, hrun]⟩

theorem AllResolve.not_some {ds : List BatchCommandData} {now : Nat}
    (h : AllResolve topologyAt keyslot retryAttempts ds now) :
    ¬ SomeUnresolvable topologyAt keyslot retryAttempts ds now := by
  induction ds generalizing now with
  | nil => exact id
  | cons d ds ih =>
    obtain ⟨mse, later, hto, hall⟩ := h
    rintro (hno | ⟨mse', later', hto', hsome⟩)
    · exact hto.not_unresolvable hno
    · obtain ⟨-, rfl⟩ := hto.unique hto'
      exact ih hall hsome

end Resolution

/-! The SCRIPT LOADs that `load_scripts` sends are those logged in its state, and it succeeds
if and only if each of them is answered with a value. -/

section Loading

variable {sha1 : String → String} {loadReply : Nat → Reply}

def AllAnswered (loadReply : Nat → Reply) (a b : Nat) : Prop :=
  ∀ n, a ≤ n → n < b → ∃ v, loadReply n = .ok v

theorem allAnswered_self (a : Nat) : AllAnswered loadReply a a := by
  intro n ha hb
  omega

theorem allAnswered_cons {a b : Nat} (h : a < b) :
    AllAnswered loadReply a b ↔ (∃ v, loadReply a = .ok v) ∧ AllAnswered loadReply (a + 1) b := by
  constructor
  · exact fun hh => ⟨hh a (Nat.le_refl a) h, fun n ha hb => hh n (by omega) hb⟩
  · rintro ⟨hfirst, hrest⟩ n ha hb
    rcases Nat.eq_or_lt_of_le ha with rfl | hlt
    · exact hfirst
    · exact hrest n hlt hb

theorem allAnswered_append {a b c : Nat} (hab : a ≤ b) (hbc : b ≤ c) :
    AllAnswered loadReply a c ↔ AllAnswered loadReply a b ∧ AllAnswered loadReply b c := by
  constructor
  · exact fun hh => ⟨fun n ha hb => hh n ha (by omega), fun n ha hb => hh n (by omega) hb⟩
  · rintro ⟨hfirst, hrest⟩ n ha hc
    rcases Nat.lt_or_ge n b with hlt | hge
    · exact hfirst n ha hlt
    · exact hrest n hge hc

/-- What a part of `load_scripts` has done: it may only have added loads to the log, and it
succeeded if and only if these were answered. -/
structure LoadsDone {α : Type} (loadReply : Nat → Reply) (st : LoadState sha1)
    (r : Except Error α × LoadState sha1) : Prop where
  grown : st.loads.length ≤ r.2.loads.length
  ok_iff : r.1.isOk = true ↔ AllAnswered loadReply st.loads.length r.2.loads.length

theorem LoadsDone.nothing {α : Type} {st : LoadState sha1} {r : Except Error α × LoadState sha1}
    (hloads : r.2.loads = st.loads) (hok : r.1.isOk = true) : LoadsDone loadReply st r := by
  constructor
  · rw [hloads]
  · rw [hloads]
    exact ⟨fun _ => allAnswered_self _, fun _ => hok⟩

theorem LoadsDone.congr {α β : Type} {st : LoadState sha1} {r : Except Error α × LoadState sha1}
    {r' : Except Error β × LoadState sha1} (h : LoadsDone loadReply st r)
    (hloads : r'.2.loads = r.2.loads) (hok : r'.1.isOk = r.1.isOk) :
    LoadsDone loadReply st r' := by
  constructor
  · rw [hloads]
    exact h.grown
  · rw [hloads, hok]
    exact h.ok_iff

theorem LoadsDone.trans {α β : Type} {st : LoadState sha1} {r : Except Error α × LoadState sha1}
    {r' : Except Error β × LoadState sha1} (h : LoadsDone loadReply st r) (hok : r.1.isOk = true)
    (h' : LoadsDone loadReply r.2 r') : LoadsDone loadReply st r' := by
  refine ⟨h.grown.trans h'.grown, ?_⟩
  rw [h'.ok_iff, allAnswered_append h.grown h'.grown]
  exact (and_iff_right (h.ok_iff.mp hok)).symm

theorem sendLoads_done (slot : Slot) (scripts : List String) (st : LoadState sha1) :
    LoadsDone loadReply st (sendLoads loadReply slot scripts st) := by
  induction scripts generalizing st with
  | nil => exact .nothing rfl rfl
  | cons script scripts ih =>
    cases hr : loadReply st.loads.length with
    | ok v =>
      have hh := ih { st with loads := st.loads ++ [(slot, script)] }
      have hrun : sendLoads loadReply slot (script :: scripts) st =
          sendLoads loadReply slot scripts { st with loads := st.loads ++ [(slot, script)] } := by
        simp [sendLoads, hr]
      have hgrown : st.loads.length + 1 ≤ (sendLoads loadReply slot scripts
          { st with loads := st.loads ++ [(slot, script)] }).2.loads.length := by
        simpa using hh.grown
      have hlen : (st.loads ++ [(slot, script)]).length = st.loads.length + 1 := by simp
      rw [hrun]
      refine ⟨by omega, ?_⟩
      rw [hh.ok_iff, hlen, allAnswered_cons hgrown]
      simp [hr]
    | error e =>
      have hrun : sendLoads loadReply slot (script :: scripts) st =
          (.error ⟨"SCRIPT LOAD failed: " ++ e.message⟩,
            { st with loads := st.loads ++ [(slot, script)] }) := by
        simp [sendLoads, hr]
      rw [hrun]
      refine ⟨by simp, ?_⟩
      rw [allAnswered_cons (by simp)]
      simp [hr, Except.isOk, Except.toBool]

theorem loadMissing_done (g : Group) (st : LoadState sha1) :
    LoadsDone loadReply st (loadMissing loadReply g st) := by
  rcases hscan : scriptsToLoad g.mse.primary g.commands st.caches [] with ⟨scripts, caches⟩
  by_cases hnone : scripts = []
  · have hrun : loadMissing loadReply g st = (.ok (), { st with caches }) := by
      simp [loadMissing, hscan, hnone]
    rw [hrun]
    exact .nothing rfl rfl
  · have hsend := @sendLoads_done _ loadReply g.mse.slotOrZero scripts { st with caches }
    have hstart : LoadsDone loadReply st
        (sendLoads loadReply g.mse.slotOrZero scripts { st with caches }) :=
      ⟨hsend.grown, hsend.ok_iff⟩
    rcases hrun : sendLoads loadReply g.mse.slotOrZero scripts { st with caches } with ⟨r, st'⟩
    rw [hrun] at hstart
    cases r <;> exact hstart.congr (by simp [loadMissing, hscan, hnone, hrun])
      (by simp [loadMissing, hscan, hnone, hrun])

theorem loadGroup_done (g : Group) (st : LoadState sha1) :
    LoadsDone loadReply st (loadGroup loadReply g st) := by
  have hmissing := @loadMissing_done _ loadReply g st
  rcases hrun : loadMissing loadReply g st with ⟨r, st'⟩
  rw [hrun] at hmissing
  cases r <;> exact hmissing.congr (by simp [loadGroup, hrun])
    (by simp [loadGroup, hrun, Except.isOk, Except.toBool])

theorem loadGroups_done (gs : List Group) (st : LoadState sha1) :
    LoadsDone loadReply st (loadGroups loadReply gs st) := by
  induction gs generalizing st with
  | nil => exact .nothing rfl rfl
  | cons g gs ih =>
    have hgroup := @loadGroup_done _ loadReply g st
    rcases hrun : loadGroup loadReply g st with ⟨r, st₁⟩
    rw [hrun] at hgroup
    cases r with
    | error e =>
      exact hgroup.congr (by simp [loadGroups, hrun])
        (by simp [loadGroups, hrun, Except.isOk, Except.toBool])
    | ok g' =>
      have hrest := hgroup.trans rfl (ih st₁)
      rcases hrun₂ : loadGroups loadReply gs st₁ with ⟨r₂, st₂⟩
      rw [hrun₂] at hrest
      cases r₂ <;> exact hrest.congr (by simp [loadGroups, hrun, hrun₂])
        (by simp [loadGroups, hrun, hrun₂, Except.isOk, Except.toBool])

theorem loadScripts_done (useScriptCache : Bool) (gs : List Group) (st : LoadState sha1) :
    LoadsDone loadReply st (loadScripts useScriptCache loadReply gs st) := by
  cases useScriptCache with
  | false => exact .nothing rfl rfl
  | true => exact loadGroups_done gs st

end Loading

section Preparation

variable {sha1 : String → String} (svc : BatchService) (env : Environment sha1) (q : Queue)

def SomeLoadFails : Prop :=
  ∃ n < (svc.scriptLoads env q).length, ∃ e, env.loadReply n = .error e

theorem someLoadFails_iff :
    SomeLoadFails svc env q ↔ ¬ AllAnswered env.loadReply 0 (svc.scriptLoads env q).length := by
  unfold SomeLoadFails AllAnswered
  constructor
  · rintro ⟨n, hn, e, he⟩ hall
    obtain ⟨v, hv⟩ := hall n (Nat.zero_le n) hn
    rw [he] at hv
    cases hv
  · intro hno
    simp only [not_forall] at hno
    obtain ⟨n, -, hn, hv⟩ := hno
    cases hr : env.loadReply n with
    | ok v => exact absurd ⟨v, hr⟩ hv
    | error e => exact ⟨n, hn, e, hr⟩

/-- There are groups to send if and only if every command found a node and every load was
answered. -/
theorem prepare_spec :
    (AllResolve env.topologyAt env.keyslot svc.batchRetryAttempts q.entries 0 ∧
      ¬ SomeLoadFails svc env q ∧ ∃ groups, prepare svc env q = .ok groups) ∨
    (SomeUnresolvable env.topologyAt env.keyslot svc.batchRetryAttempts q.entries 0 ∨
      SomeLoadFails svc env q) ∧ ∃ e, prepare svc env q = .error e := by
  rcases @groupEntries_spec env.topologyAt env.keyslot svc.batchRetryAttempts q.entries 0 [] with
    ⟨hall, nodeMap, hmap⟩ | ⟨hsome, e, he⟩
  · have hdone := @loadScripts_done _ env.loadReply svc.useScriptCache (env.iterate nodeMap)
      ⟨env.caches, []⟩
    have hloads : svc.scriptLoads env q = (loadScripts svc.useScriptCache env.loadReply
        (env.iterate nodeMap) ⟨env.caches, []⟩).2.loads := by
      simp [BatchService.scriptLoads, hmap]
    have hprepare : prepare svc env q = (loadScripts svc.useScriptCache env.loadReply
        (env.iterate nodeMap) ⟨env.caches, []⟩).1 := by
      simp [prepare, hmap]
    have hok := hdone.ok_iff
    rw [← hprepare, ← hloads] at hok
    cases hp : prepare svc env q with
    | ok groups =>
      rw [hp] at hok
      refine .inl ⟨hall, ?_, groups, rfl⟩
      rw [someLoadFails_iff, not_not]
      exact hok.mp rfl
    | error e =>
      rw [hp] at hok
      refine .inr ⟨.inr ?_, e, rfl⟩
      rw [someLoadFails_iff, ← List.length_nil, ← hok]
      exact Bool.false_ne_true
  · exact .inr ⟨.inl hsome, e, by simp [prepare, he]⟩

theorem prepare_empty (h : q.entries = []) : prepare svc env q = .ok [] := by
  have hiterate : env.iterate [] = [] := List.perm_nil.mp (env.iterate_perm [])
  cases hc : svc.useScriptCache <;>
    simp [prepare, h, groupEntries, hiterate, loadScripts, loadGroups, hc]

end Preparation

/-- What is asked of an in-memory execution when something cannot be routed or loaded, and when
everything can. -/
structure AllOrNothing {sha1 : String → String} (svc : BatchService) (x : Execution sha1) :
    Prop where
  nothing : SomeUnresolvable x.env.topologyAt x.env.keyslot svc.batchRetryAttempts
      x.queue.entries 0 ∨ SomeLoadFails svc x.env x.queue →
    (∃ e, executeAsync svc x = .error e) ∧
    (executeFates svc x.env x.fate x.queue x.sched).pipelines = [] ∧
    ∀ d ∈ x.queue.entries, ∃ e,
      callerResult (executeFates svc x.env x.fate x.queue x.sched) d.index = .error e
  all : AllResolve x.env.topologyAt x.env.keyslot svc.batchRetryAttempts x.queue.entries 0 →
    ¬ SomeLoadFails svc x.env x.queue →
    ∃ groups, (x.queue.entries ≠ [] → executeFates svc x.env x.fate x.queue x.sched =
        runFates svc x.env x.fate groups x.sched) ∧
      (groups.map (·.mse.primary)).Nodup ∧
      (∀ d ∈ x.queue.entries, ∃! g, g ∈ groups ∧ d.loaded svc.useScriptCache sha1 ∈ g.commands) ∧
      ∀ g ∈ groups, g.commands.Sublist (x.queue.entries.map (·.loaded svc.useScriptCache sha1))

section Execute

variable {sha1 : String → String} {svc : BatchService}

theorem exists_unique_group {env : Environment sha1} {q : Queue} {groups : List Group}
    (hp : prepare svc env q = .ok groups) {d : BatchCommandData} (hd : d ∈ q.entries) :
    ∃! g, g ∈ groups ∧ d.loaded svc.useScriptCache sha1 ∈ g.commands := by
  have hmem := (prepare_commands_perm hp).mem_iff.mpr
    (List.mem_map_of_mem (f := (·.loaded svc.useScriptCache sha1)) hd)
  obtain ⟨g, hg, hdg⟩ := List.mem_flatMap.mp hmem
  refine ⟨g, ⟨hg, hdg⟩, ?_⟩
  rintro g' ⟨hg', hdg'⟩
  obtain ⟨j, hj⟩ := List.mem_iff_getElem?.mp hdg
  obtain ⟨j', hj'⟩ := List.mem_iff_getElem?.mp hdg'
  exact (place_unique hp hg' hg (by rw [hj']; rfl) (by rw [hj]; rfl)).1

theorem executeAsync_inMemory {x : Execution sha1}
    (hm : svc.options.executionMode = .inMemory ∨ svc.options.executionMode = .inMemoryAtomic) :
    executeAsync svc x = (executeFates svc x.env x.fate x.queue x.sched).result := by
  unfold executeAsync
  rcases hm with hm | hm <;> rw [hm]

theorem executeAsync_allOrNothing (x : Execution sha1)
    (hm : svc.options.executionMode = .inMemory ∨ svc.options.executionMode = .inMemoryAtomic) :
    AllOrNothing svc x := by
  constructor
  · intro hfail
    rcases prepare_spec svc x.env x.queue with ⟨hall, hloaded, -⟩ | ⟨-, e, he⟩
    · exact absurd hfail (not_or.mpr ⟨hall.not_some, hloaded⟩)
    · have hne : x.queue.entries ≠ [] := by
        intro hempty
        rw [prepare_empty svc x.env x.queue hempty] at he
        cases he
      have hrun : executeFates svc x.env x.fate x.queue x.sched = ⟨[], [], .error e⟩ := by
        simp [executeFates, hne, he]
      rw [executeAsync_inMemory hm, hrun]
      exact ⟨⟨e, rfl⟩, rfl, fun d _ => ⟨_, rfl⟩⟩
  · intro hall hloaded
    rcases prepare_spec svc x.env x.queue with ⟨-, -, groups, hp⟩ | ⟨hfail, -⟩
    · exact ⟨groups, fun hne => executeFates_ok hne hp, prepare_primaries_nodup hp,
        fun d hd => exists_unique_group hp hd, fun g hg => prepare_sublist hp hg⟩
    · exact absurd hfail (not_or.mpr ⟨hall.not_some, hloaded⟩)

end Execute

/-! A pool that knows no host, and the two reads on the two-node cluster. -/

def hostlessEnvironment : Environment fun _ => "" where
  keyslot _ := 12182
  topologyAt _ := ⟨none, []⟩
  iterate gs := gs
  iterate_perm := .refl
  caches := .empty
  loadReply _ := .ok .null
  enqueueError _ := none
  reply _ _ := .ok .null
  debug _ := ""

def hostless : Execution fun _ => "" where
  env := hostlessEnvironment
  fate _ := .panicked ""
  sched := .first 0
  queue := incrementQueue
  pool := idlePool 1 Nat.one_pos
  redisBased := .new
  timeout := "3s"
  timesOut := none

def twoGroups : Execution fun _ => "" :=
  { hostless with env := clusterEnvironment, queue := twoReads }

theorem executeAsync_allOrNothing_hostless :
    (SomeUnresolvable hostless.env.topologyAt hostless.env.keyslot plainService.batchRetryAttempts
      hostless.queue.entries 0 ∧ AllOrNothing plainService hostless) ∧
    (AllResolve twoGroups.env.topologyAt twoGroups.env.keyslot clusterService.batchRetryAttempts
      twoGroups.queue.entries 0 ∧ ¬ SomeLoadFails clusterService twoGroups.env twoGroups.queue ∧
        AllOrNothing clusterService twoGroups) := by
  refine ⟨⟨.inl fun _ _ => rfl, executeAsync_allOrNothing hostless (.inl rfl)⟩, ?_⟩
  rcases prepare_spec clusterService clusterEnvironment twoReads with
    ⟨hall, hloaded, -⟩ | ⟨-, e, he⟩
  · exact ⟨hall, hloaded, executeAsync_allOrNothing twoGroups (.inl rfl)⟩
  · cases prepare_twoReads.symm.trans he

end Redisson

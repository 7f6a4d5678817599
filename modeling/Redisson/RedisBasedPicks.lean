import Redisson.RedisBasedCalls

/-! The picks of a Redis-based batch, read off its commands and the accepted sends: when it
sends MULTI, which commands it sends, and when its EXEC is due. -/

namespace Redisson

section Picks

variable (svc : BatchService) (env : PoolEnvironment)

/-- The picks at which MULTI goes out, with its slot: one for each command that finds the
queue empty, up to the first accepted one. -/
def multis : Nat → Option Slot → List RedisCommand → List (Nat × Slot)
  | _, _, [] => []
  | n, slot, cmd :: cmds =>
    if isWaitCommand cmd then multis n slot cmds
    else
      let slot := (cmd.routingKey.map env.keyslot).or slot
      (n, slot.getD 0) ::
        if env.accepts n then
          if env.accepts (n + 1) then [] else multis (n + 2) slot cmds
        else multis (n + 1) slot cmds

/-- The commands that are sent: those whose MULTI, if one was due, is accepted. -/
def sentCommands : Nat → List RedisCommand → List RedisCommand
  | _, [] => []
  | n, cmd :: cmds =>
    if isWaitCommand cmd then sentCommands n cmds
    else if env.accepts n then
      cmd :: if env.accepts (n + 1) then queueable cmds else sentCommands (n + 2) cmds
    else sentCommands (n + 1) cmds

def Ending.picks : Ending → Nat
  | .discard | .execute (some .lock) => 0
  | .execute (some .exec) => 1
  | .execute none | .execute (some .wait) => 1 + if Group.waits svc then 1 else 0

def Ending.SendsExec : Ending → Prop
  | .discard | .execute (some .lock) => False
  | _ => True

def picksMade (ending : Ending) (cmds : List RedisCommand) : Nat :=
  (multis env 0 none cmds).length + (sentCommands env 0 cmds).length +
    if (opening env 0 none cmds).isSome then ending.picks svc else 0

end Picks

section Positions

variable {svc : BatchService} {env : PoolEnvironment}

theorem queueCalls_multis (n : Nat) (slot : Option Slot) (cmds : List RedisCommand) :
    ((queueCalls env n slot cmds).zipIdx n).filter (fun w => w.1.1 = .multi) =
      (multis env n slot cmds).map fun m => ((.multi, multiCall m.2), m.1) := by
  have hrest : ∀ (m : Nat) (cmds : List RedisCommand), (((queueable cmds).map commandCall).zipIdx m).filter
      (fun w => w.1.1 = .multi) = [] := by
    intro m cmds
    simp only [List.filter_eq_nil_iff, decide_eq_true_eq]
    intro w hw
    obtain ⟨cmd', -, hcmd⟩ := List.mem_map.mp (List.fst_mem_of_mem_zipIdx hw)
    simp [← hcmd, commandCall]
  induction n, slot, cmds using queueing_induction env with
  | nil n slot => rfl
  | wait n slot cmd cmds hw ih => simpa [queueCalls, multis, hw] using ih
  | opened n slot cmd cmds hw hm ha =>
    simp [queueCalls, multis, hw, hm, ha, List.zipIdx_cons, commandCall, hrest]
  | commandRefused n slot cmd cmds hw hm ha ih =>
    simp [queueCalls, multis, hw, hm, ha, List.zipIdx_cons, commandCall, ih]
  | multiRefused n slot cmd cmds hw hm ih => simp [queueCalls, multis, hw, hm, List.zipIdx_cons, ih]

theorem queueCalls_length (n : Nat) (slot : Option Slot) (cmds : List RedisCommand) :
    (queueCalls env n slot cmds).length =
      (multis env n slot cmds).length + (sentCommands env n cmds).length := by
  induction n, slot, cmds using queueing_induction env with
  | nil n slot => rfl
  | wait n slot cmd cmds hw ih => simpa [queueCalls, multis, sentCommands, hw] using ih
  | opened n slot cmd cmds hw hm ha =>
    simp [queueCalls, multis, sentCommands, hw, hm, ha]
    omega
  | commandRefused n slot cmd cmds hw hm ha ih =>
    simp [queueCalls, multis, sentCommands, hw, hm, ha, ih]
    omega
  | multiRefused n slot cmd cmds hw hm ih =>
    simp [queueCalls, multis, sentCommands, hw, hm, ih]
    omega

theorem queueCalls_opening {n : Nat} {slot : Option Slot} {cmds : List RedisCommand} {o : Opening}
    (h : opening env n slot cmds = some o) :
    n + (queueCalls env n slot cmds).length = o.pick + 1 + o.commands.length := by
  induction n, slot, cmds using queueing_induction env with
  | nil n slot => simp [opening] at h
  | wait n slot cmd cmds hw ih =>
    have hh := ih (by simpa [opening, hw] using h)
    simpa [queueCalls, hw] using hh
  | opened n slot cmd cmds hw hm ha =>
    simp only [opening, hw, hm, ha, Bool.false_eq_true, if_false, if_true, Option.some.injEq] at h
    subst h
    simp [queueCalls, hw, hm, ha, queueable]
    omega
  | commandRefused n slot cmd cmds hw hm ha ih =>
    have hh := ih (by simpa [opening, hw, hm, ha] using h)
    simp [queueCalls, hw, hm, ha]
    omega
  | multiRefused n slot cmd cmds hw hm ih =>
    have hh := ih (by simpa [opening, hw, hm] using h)
    simp [queueCalls, hw, hm]
    omega

theorem queueCalls_no_exec {n : Nat} {slot : Option Slot} {cmds : List RedisCommand} :
    ∀ w ∈ queueCalls env n slot cmds, w.1 ≠ .exec := by
  induction n, slot, cmds using queueing_induction env with
  | nil n slot => simp [queueCalls]
  | wait n slot cmd cmds hw ih => simpa [queueCalls, hw] using ih
  | opened n slot cmd cmds hw hm ha => simp [queueCalls, hw, hm, ha, commandCall]
  | commandRefused n slot cmd cmds hw hm ha ih => simpa [queueCalls, hw, hm, ha, commandCall] using ih
  | multiRefused n slot cmd cmds hw hm ih => simpa [queueCalls, hw, hm] using ih

theorem Ending.calls_length {slot : Slot} (ending : Ending) :
    (ending.calls svc slot).length = ending.picks svc := by
  match ending with
  | .discard | .execute (some .lock) | .execute (some .exec) => rfl
  | .execute none | .execute (some .wait) =>
    cases hw : Group.waits svc <;> simp [Ending.calls, Ending.picks, waitCalls, hw]

theorem Ending.picks_pos (svc : BatchService) {ending : Ending} (h : ending.SendsExec) :
    0 < ending.picks svc := by
  match ending with
  | .execute (some .exec) => exact Nat.one_pos
  | .execute none | .execute (some .wait) =>
    simp only [Ending.picks]
    omega

theorem batchCalls_length (ending : Ending) (cmds : List RedisCommand) :
    (batchCalls svc env ending cmds).length = picksMade svc env ending cmds := by
  unfold batchCalls picksMade
  cases ho : opening env 0 none cmds <;> simp [queueCalls_length, Ending.calls_length]

theorem Ending.calls_no_multi {slot : Slot} {ending : Ending} :
    ∀ w ∈ ending.calls svc slot, w.1 ≠ .multi := by
  match ending with
  | .discard | .execute (some .lock) | .execute (some .exec) => simp [Ending.calls]
  | .execute none | .execute (some .wait) =>
    cases hw : Group.waits svc <;> simp [Ending.calls, waitCalls, hw]

theorem Ending.calls_of_sendsExec {slot : Slot} {ending : Ending} (h : ending.SendsExec) :
    ∃ rest, ending.calls svc slot = (.exec, execCall slot) :: rest ∧ ∀ w ∈ rest, w.1 = .wait := by
  match ending with
  | .execute (some .exec) => exact ⟨[], rfl, by simp⟩
  | .execute none | .execute (some .wait) => exact ⟨_, rfl, by simp⟩

theorem Ending.calls_of_not_sendsExec {slot : Slot} {ending : Ending} (h : ¬ ending.SendsExec) :
    ending.calls svc slot = [] := by
  match ending with
  | .discard | .execute (some .lock) => rfl
  | .execute none | .execute (some .exec) | .execute (some .wait) => exact absurd trivial h

theorem batchCalls_multi {ending : Ending} {cmds : List RedisCommand} {n : Nat} {call : Call} :
    (batchCalls svc env ending cmds)[n]? = some (.multi, call) ↔
      ∃ slot, (n, slot) ∈ multis env 0 none cmds ∧ call = multiCall slot := by
  obtain ⟨rest, hcalls, hrest⟩ : ∃ rest, batchCalls svc env ending cmds =
      queueCalls env 0 none cmds ++ rest ∧ ∀ w ∈ rest, w.1 ≠ .multi := by
    cases ho : opening env 0 none cmds with
    | none => exact ⟨[], by rw [batchCalls, ho], by simp⟩
    | some o => exact ⟨ending.calls svc o.slot, by rw [batchCalls, ho], Ending.calls_no_multi⟩
  have hleft : (batchCalls svc env ending cmds)[n]? = some (.multi, call) ↔
      (queueCalls env 0 none cmds)[n]? = some (.multi, call) := by
    constructor
    · intro h
      rw [hcalls, List.getElem?_append] at h
      split at h
      · exact h
      · exact absurd rfl (hrest _ (List.mem_of_getElem? h))
    · intro h
      rw [hcalls, List.getElem?_append_left (List.getElem?_eq_some_iff.mp h).1, h]
  have hmem : (queueCalls env 0 none cmds)[n]? = some (.multi, call) ↔
      ((.multi, call), n) ∈ (multis env 0 none cmds).map fun m => ((Purpose.multi, multiCall m.2), m.1) := by
    rw [← queueCalls_multis, List.mem_filter, List.mem_zipIdx_iff_getElem?]
    simp
  rw [hleft, hmem, List.mem_map]
  constructor
  · rintro ⟨⟨m, slot⟩, hm, heq⟩
    obtain ⟨rfl, rfl⟩ : multiCall slot = call ∧ m = n := by simpa using heq
    exact ⟨slot, hm, rfl⟩
  · rintro ⟨slot, hm, rfl⟩
    exact ⟨(n, slot), hm, rfl⟩

theorem batchCalls_exec {ending : Ending} {cmds : List RedisCommand} {n : Nat} {call : Call} :
    (batchCalls svc env ending cmds)[n]? = some (.exec, call) ↔
      ∃ o, opening env 0 none cmds = some o ∧ ending.SendsExec ∧
        n = o.pick + 1 + o.commands.length ∧ call = execCall o.slot := by
  have hqueue : ∀ m, (queueCalls env 0 none cmds)[m]? ≠ some (Purpose.exec, call) :=
    fun m h => queueCalls_no_exec _ (List.mem_of_getElem? h) rfl
  cases ho : opening env 0 none cmds with
  | none => simpa [batchCalls, ho] using hqueue n
  | some o =>
    have hlen := queueCalls_opening ho
    rw [Nat.zero_add] at hlen
    simp only [batchCalls, ho, List.getElem?_append, hlen]
    by_cases hs : ending.SendsExec
    · obtain ⟨rest, hcalls, hrest⟩ := @Ending.calls_of_sendsExec svc o.slot ending hs
      have htail : ∀ m : Nat, rest[m]? ≠ some (Purpose.exec, call) := by
        intro m h
        cases hrest _ (List.mem_of_getElem? h)
      rw [hcalls]
      by_cases hn : n < o.pick + 1 + o.commands.length
      · simp [hn, hqueue, hs, hn.ne]
      · obtain ⟨m, rfl⟩ := Nat.exists_eq_add_of_le (Nat.le_of_not_lt hn)
        cases m with
        | zero => simp [hs, eq_comm]
        | succ m =>
          rw [if_neg hn]
          simp [htail]
    · rw [Ending.calls_of_not_sendsExec hs]
      split <;> simp [hqueue, hs]

theorem opening_multis {n : Nat} {slot : Option Slot} {cmds : List RedisCommand} {o : Opening}
    (h : opening env n slot cmds = some o) :
    n ≤ o.pick ∧ env.accepts o.pick = true ∧
      ∃ before, multis env n slot cmds = before ++ [(o.pick, o.slot)] ∧ ∀ m ∈ before, m.1 < o.pick := by
  induction n, slot, cmds using queueing_induction env with
  | nil n slot => simp [opening] at h
  | wait n slot cmd cmds hw ih => simpa [multis, hw] using ih (by simpa [opening, hw] using h)
  | opened n slot cmd cmds hw hm ha =>
    simp only [opening, hw, hm, ha, Bool.false_eq_true, if_false, if_true, Option.some.injEq] at h
    subst h
    exact ⟨le_rfl, hm, [], by simp [multis, hw, hm, ha], by simp⟩
  | commandRefused n slot cmd cmds hw hm ha ih =>
    obtain ⟨hle, hacc, before, heq, hlt⟩ := ih (by simpa [opening, hw, hm, ha] using h)
    refine ⟨by omega, hacc, _ :: before, by simp [multis, hw, hm, ha, heq]; rfl, ?_⟩
    simpa using ⟨by omega, fun a b hab => hlt (a, b) hab⟩
  | multiRefused n slot cmd cmds hw hm ih =>
    obtain ⟨hle, hacc, before, heq, hlt⟩ := ih (by simpa [opening, hw, hm] using h)
    refine ⟨by omega, hacc, _ :: before, by simp [multis, hw, hm, heq]; rfl, ?_⟩
    simpa using ⟨by omega, fun a b hab => hlt (a, b) hab⟩

end Positions

end Redisson

import Redisson.RoutingFailure
import Redisson.PatternSubscription

/-! From the texts of a configuration file to the hosts that `fred` is given and the settings of a
batch, and what they make of a batch outside a cluster. -/

namespace Redisson

structure RedisNodeConfig where
  host : String
  port : UInt16
  deriving DecidableEq

inductive ShardedSubscriptionMode
  | auto
  | on
  | off
  deriving DecidableEq

/-- `ServerMode` with what each mode connects to; `kind` is the mode alone. -/
inductive ServerModeConfig
  | standalone (server : RedisNodeConfig) (db : UInt8)
  | cluster (nodes : List RedisNodeConfig)
  | sentinel (sentinels : List RedisNodeConfig) (serviceName : String)
      (username password : Option String) (db : UInt8)

def ServerModeConfig.kind : ServerModeConfig → ServerMode
  | standalone .. => .standalone
  | cluster .. => .cluster
  | sentinel .. => .sentinel

/-- The deserialized file. Durations are in the units that their names have. -/
structure RedisConfig where
  mode : String
  host : String
  port : UInt16
  nodes : List RedisNodeConfig
  sentinelServiceName : String
  sentinelUsername : Option String
  sentinelPassword : Option String
  username : Option String
  password : Option String
  db : UInt8
  connectTimeoutSecs : Nat
  maxCommandAttempts : Nat
  maxRedirections : Nat
  reconnectMaxAttempts : Nat
  reconnectMinDelayMs : Nat
  reconnectMaxDelayMs : Nat
  reconnectMultiplier : Nat
  poolSize : Nat
  lockWatchdogTimeout : Nat
  subscriptionTimeout : Nat
  commandTimeoutMs : Nat
  retryAttempts : Nat
  retryDelayBaseMs : Nat
  shardedSubscriptionMode : String
  readMode : String
  useScriptCache : Bool
  slavesSyncTimeoutMs : Nat
  checkLockSyncedSlaves : Bool

def RedisConfig.default : RedisConfig where
  mode := "standalone"
  host := "localhost"
  port := 6379
  nodes := []
  sentinelServiceName := "mymaster"
  sentinelUsername := none
  sentinelPassword := none
  username := none
  password := none
  db := 0
  connectTimeoutSecs := 5
  maxCommandAttempts := 3
  maxRedirections := 5
  reconnectMaxAttempts := 0
  reconnectMinDelayMs := 1
  reconnectMaxDelayMs := 30000
  reconnectMultiplier := 2
  poolSize := 5
  lockWatchdogTimeout := 30
  subscriptionTimeout := 7500
  commandTimeoutMs := 3000
  retryAttempts := 4
  retryDelayBaseMs := 1000
  shardedSubscriptionMode := "auto"
  readMode := "slave"
  useScriptCache := true
  slavesSyncTimeoutMs := 1000
  checkLockSyncedSlaves := true

/-- The configuration the program works with. Durations are milliseconds. -/
structure RedissonConfig where
  mode : ServerModeConfig
  username : Option String
  password : Option String
  commandTimeout : Nat
  connectTimeout : Nat
  maxCommandAttempts : Nat
  maxRedirections : Nat
  reconnectMaxAttempts : Nat
  reconnectMinDelay : Nat
  reconnectMaxDelay : Nat
  reconnectMultiplier : Nat
  poolSize : Nat
  lockWatchdogTimeout : Nat
  subscriptionTimeout : Nat
  retryAttempts : Nat
  retryDelay : Nat
  shardedSubscriptionMode : ShardedSubscriptionMode
  readMode : ReadMode
  useScriptCache : Bool
  slavesSyncTimeout : Nat
  checkLockSyncedSlaves : Bool

section TryFrom

-- `str::to_lowercase`, which knows all of Unicode
variable (toLowercase : String → String)

def RedisConfig.serverMode (c : RedisConfig) : Except Error ServerModeConfig :=
  match toLowercase c.mode with
  | "standalone" => .ok (.standalone ⟨c.host, c.port⟩ c.db)
  | "cluster" =>
    if c.nodes.isEmpty then .error ⟨"Cluster mode requires at least one node in 'nodes'"⟩
    else .ok (.cluster c.nodes)
  | "sentinel" =>
    if c.nodes.isEmpty then .error ⟨"Sentinel mode requires at least one node in 'nodes'"⟩
    else .ok (.sentinel c.nodes c.sentinelServiceName c.sentinelUsername c.sentinelPassword c.db)
  | other => .error ⟨"Invalid mode '" ++ other ++ "'. Expected: standalone, cluster, sentinel"⟩

def RedisConfig.subscriptionMode (c : RedisConfig) : Except Error ShardedSubscriptionMode :=
  match toLowercase c.shardedSubscriptionMode with
  | "auto" => .ok .auto
  | "on" => .ok .on
  | "off" => .ok .off
  | other =>
    .error ⟨"Invalid sharded_subscription_mode '" ++ other ++ "'. Expected: auto, on, off"⟩

def RedisConfig.readModeOf (c : RedisConfig) : Except Error ReadMode :=
  match toLowercase c.readMode with
  | "slave" => .ok .slave
  | "master" => .ok .master
  | "master_slave" => .ok .masterSlave
  | other => .error ⟨"Invalid read_mode '" ++ other ++ "'. Expected: slave, master, master_slave"⟩

def RedissonConfig.tryFrom (c : RedisConfig) : Except Error RedissonConfig := do
  let mode ← c.serverMode toLowercase
  let shardedSubscriptionMode ← c.subscriptionMode toLowercase
  let readMode ← c.readModeOf toLowercase
  return {
    mode
    username := c.username
    password := c.password
    commandTimeout := c.commandTimeoutMs
    connectTimeout := c.connectTimeoutSecs * 1000
    maxCommandAttempts := c.maxCommandAttempts
    maxRedirections := c.maxRedirections
    reconnectMaxAttempts := c.reconnectMaxAttempts
    reconnectMinDelay := c.reconnectMinDelayMs
    reconnectMaxDelay := c.reconnectMaxDelayMs
    reconnectMultiplier := c.reconnectMultiplier
    poolSize := c.poolSize
    lockWatchdogTimeout := c.lockWatchdogTimeout * 1000
    subscriptionTimeout := c.subscriptionTimeout
    retryAttempts := c.retryAttempts
    retryDelay := c.retryDelayBaseMs
    shardedSubscriptionMode
    readMode
    useScriptCache := c.useScriptCache
    slavesSyncTimeout := c.slavesSyncTimeoutMs
    checkLockSyncedSlaves := c.checkLockSyncedSlaves }

end TryFrom

inductive ServerConfig
  | centralized (server : Server)
  | clustered (hosts : List Server)
  | sentinel (hosts : List Server) (serviceName : String) (username password : Option String)

def ServerConfig.hosts : ServerConfig → List Server
  | centralized server => [server]
  | clustered hosts | sentinel hosts .. => hosts

structure FredConfig where
  server : ServerConfig
  username : Option String
  password : Option String
  database : Option UInt8

def RedisNodeConfig.server (n : RedisNodeConfig) : Server := ⟨n.host, n.port⟩

def ServerModeConfig.serverConfig : ServerModeConfig → ServerConfig × Option UInt8
  | standalone server db => (.centralized server.server, some db)
  | cluster nodes => (.clustered (nodes.map RedisNodeConfig.server), none)
  | sentinel sentinels serviceName username password db =>
    (.sentinel (sentinels.map RedisNodeConfig.server) serviceName username password, some db)

def buildFredConfig (config : RedissonConfig) : FredConfig where
  server := config.mode.serverConfig.1
  username := config.username
  password := config.password
  database := config.mode.serverConfig.2

/-- What the pool knows at a moment: only a cluster has a routing table. -/
def RedissonConfig.topology (config : RedissonConfig) (table : Option (Slot → Option Server)) :
    Topology where
  clusterState := if config.mode.kind = .cluster then table else none
  hosts := (buildFredConfig config).server.hosts

/-- `CommandBatchService::new`: a negative number of attempts stands for that of the
configuration. -/
def BatchService.new (config : RedissonConfig) (options : BatchOptions) : BatchService where
  options := options
  batchRetryAttempts :=
    if 0 ≤ options.retryAttempts then options.retryAttempts.toNat else config.retryAttempts
  useScriptCache := config.useScriptCache
  readMode := config.readMode

section Hosts

variable {toLowercase : String → String} {c : RedisConfig} {config : RedissonConfig}

theorem serverMode_hosts {mode : ServerModeConfig} (h : c.serverMode toLowercase = .ok mode) :
    mode.serverConfig.1.hosts ≠ [] := by
  unfold RedisConfig.serverMode at h
  split at h
  · cases h
    exact List.cons_ne_nil _ _
  · split at h
    · cases h
    · next hnodes =>
      cases h
      simpa [ServerModeConfig.serverConfig, ServerConfig.hosts] using hnodes
  · split at h
    · cases h
    · next hnodes =>
      cases h
      simpa [ServerModeConfig.serverConfig, ServerConfig.hosts] using hnodes
  · cases h

/-- An accepted configuration has a host. -/
theorem tryFrom_hosts (h : RedissonConfig.tryFrom toLowercase c = .ok config) :
    (buildFredConfig config).server.hosts ≠ [] := by
  unfold RedissonConfig.tryFrom at h
  cases hmode : c.serverMode toLowercase with
  | error e => simp [hmode, bind, Except.bind] at h
  | ok mode =>
    cases hsub : c.subscriptionMode toLowercase with
    | error e => simp [hmode, hsub, bind, Except.bind] at h
    | ok sub =>
      cases hread : c.readModeOf toLowercase with
      | error e => simp [hmode, hsub, hread, bind, Except.bind] at h
      | ok read =>
        have hconfig : config.mode = mode := by
          simp only [hmode, hsub, hread, bind, Except.bind, pure, Except.pure] at h
          cases h
          rfl
        unfold buildFredConfig
        rw [hconfig]
        exact serverMode_hosts hmode

/-- The defaults are accepted, their texts being in lower case. -/
theorem tryFrom_default (h : ∀ s ∈ ["standalone", "auto", "slave"], toLowercase s = s) :
    ∃ config, RedissonConfig.tryFrom toLowercase .default = .ok config ∧
      (buildFredConfig config).server.hosts = [⟨"localhost", 6379⟩] := by
  have hmode : RedisConfig.serverMode toLowercase .default =
      .ok (.standalone ⟨"localhost", 6379⟩ 0) := by
    simp [RedisConfig.serverMode, RedisConfig.default, h]
  have hsub : RedisConfig.subscriptionMode toLowercase .default = .ok .auto := by
    simp [RedisConfig.subscriptionMode, RedisConfig.default, h]
  have hread : RedisConfig.readModeOf toLowercase .default = .ok .slave := by
    simp [RedisConfig.readModeOf, RedisConfig.default, h]
  unfold RedissonConfig.tryFrom
  rw [hmode, hsub, hread]
  exact ⟨_, rfl, rfl⟩

end Hosts

section OneNode

variable {topologyAt : Nat → Topology} {keyslot : Key → Slot} {retryAttempts : Nat} {host : Server}

theorem resolveEntry_host (h : ∀ t, (topologyAt t).getWriteEntry = fun _ => some ⟨host, none⟩)
    (slot : Slot) (now : Nat) :
    resolveEntry topologyAt retryAttempts slot now = (.ok ⟨host, none⟩, now + 1) := by
  unfold resolveEntry
  cases retryAttempts <;> simp [resolveLoop, h]

/-- Where every slot is written to one host the map has one entry, which takes the commands in
their order. -/
theorem groupEntries_host (h : ∀ t, (topologyAt t).getWriteEntry = fun _ => some ⟨host, none⟩)
    (ds : List BatchCommandData) (now : Nat) (entry : Entry) :
    groupEntries topologyAt keyslot retryAttempts ds now [⟨⟨host, none⟩, entry⟩] =
      .ok [⟨⟨host, none⟩, ds.foldl Entry.addCommand entry⟩] := by
  induction ds generalizing now entry with
  | nil => rfl
  | cons d ds ih =>
    rw [groupEntries, resolveEntry_host h]
    simpa [addToNode] using ih (now + 1) (entry.addCommand d)

theorem addCommands_commands (ds : List BatchCommandData) (entry : Entry) :
    (ds.foldl Entry.addCommand entry).commands = entry.commands ++ ds := by
  induction ds generalizing entry with
  | nil => simp
  | cons d ds ih => simp [ih, Entry.addCommand]

end OneNode

section Unsplit

variable {toLowercase : String → String} {c : RedisConfig} {config : RedissonConfig}
  {sha1 : String → String} {env : Environment sha1} {q : Queue} {host : Server}

theorem topology_getWriteEntry (hmode : config.mode.kind ≠ .cluster)
    (hhost : (buildFredConfig config).server.hosts.head? = some host)
    (table : Option (Slot → Option Server)) :
    (config.topology table).getWriteEntry = fun _ => some ⟨host, none⟩ := by
  funext slot
  simp [RedissonConfig.topology, Topology.getWriteEntry, hmode, hhost]

def wholeGroup (host : Server) (q : Queue) : Group :=
  ⟨⟨host, none⟩, q.entries.foldl Entry.addCommand .new⟩

theorem wholeGroup_commands : (wholeGroup host q).commands = q.entries :=
  addCommands_commands q.entries .new

theorem groupEntries_whole {retryAttempts : Nat} (hq : q.entries ≠ [])
    (h : ∀ t, (env.topologyAt t).getWriteEntry = fun _ => some ⟨host, none⟩) :
    groupEntries env.topologyAt env.keyslot retryAttempts q.entries 0 [] =
      .ok [wholeGroup host q] := by
  unfold wholeGroup
  cases hds : q.entries with
  | nil => exact absurd hds hq
  | cons d ds =>
    rw [groupEntries, resolveEntry_host h]
    exact groupEntries_host h ds 1 _

theorem executeInMemory_singleton {svc : BatchService} {g : Group} {sched : Schedule}
    (hq : q.entries ≠ []) (hp : prepare svc env q = .ok [g]) :
    (executeInMemory svc env q sched).pipelines =
      if (env.enqueueError g.mse.primary).isNone then [(g.mse.primary, g.pipeline svc)] else [] := by
  have horder : sched.order [g] = [g] := List.perm_singleton.mp (sched.order_perm [g])
  rw [executeInMemory_ok hq hp]
  unfold runGroups
  cases henq : (env.enqueueError g.mse.primary).isNone <;> simp [horder, henq]

/-- Outside a cluster an accepted configuration never splits a batch and never fails to route it:
unless a SCRIPT LOAD fails or a call is refused as it is queued, all of its commands go out on one
pipeline in the order of the queue, between one MULTI and one EXEC if it is atomic. Their group is
that of the first configured host, whichever primary the sentinels name. -/
theorem unsplit_outside_cluster (hc : RedissonConfig.tryFrom toLowercase c = .ok config)
    (hmode : config.mode.kind ≠ .cluster) (options : BatchOptions)
    {table : Nat → Option (Slot → Option Server)}
    (henv : ∀ t, env.topologyAt t = config.topology (table t)) (hq : q.entries ≠ []) :
    ∃ host ∈ (buildFredConfig config).server.hosts.head?,
      (SomeLoadFails (BatchService.new config options) env q ∧
        ∃ e, prepare (BatchService.new config options) env q = .error e) ∨
      ∃ g, prepare (BatchService.new config options) env q = .ok [g] ∧ g.mse = ⟨host, none⟩ ∧
        g.commands = q.entries.map (·.loaded config.useScriptCache sha1) ∧
        ∀ sched, (executeInMemory (BatchService.new config options) env q sched).pipelines =
          if (env.enqueueError host).isNone then
            [(host, g.pipeline (BatchService.new config options))]
          else [] := by
  obtain ⟨host, hhost⟩ : ∃ host, (buildFredConfig config).server.hosts.head? = some host := by
    cases hhosts : (buildFredConfig config).server.hosts with
    | nil => exact absurd hhosts (tryFrom_hosts hc)
    | cons host hosts => exact ⟨host, rfl⟩
  refine ⟨host, hhost, ?_⟩
  have hwrite : ∀ t, (env.topologyAt t).getWriteEntry = fun _ => some ⟨host, none⟩ := fun t => by
    rw [henv t, topology_getWriteEntry hmode hhost]
  have hmap := @groupEntries_whole sha1 env q host
    (BatchService.new config options).batchRetryAttempts hq hwrite
  have hresolve : AllResolve env.topologyAt env.keyslot
      (BatchService.new config options).batchRetryAttempts q.entries 0 := by
    rcases groupEntries_spec q.entries 0 [] with ⟨hall, -⟩ | ⟨-, e, he⟩
    · exact hall
    · rw [hmap] at he
      cases he
  rcases prepare_spec (BatchService.new config options) env q with
    ⟨-, -, groups, hp⟩ | ⟨hsome | hload, e, he⟩
  · obtain ⟨nodeMap, hnode, hgroups⟩ := prepare_ok hp
    rw [hmap] at hnode
    cases hnode
    have hiterate : env.iterate [wholeGroup host q] = [wholeGroup host q] :=
      List.perm_singleton.mp (env.iterate_perm _)
    rw [hiterate] at hgroups
    subst hgroups
    refine .inr ⟨_, hp, rfl, ?_, fun sched => executeInMemory_singleton hq hp⟩
    rw [Group.mapCommands_commands, wholeGroup_commands]
    rfl
  · exact absurd hsome hresolve.not_some
  · exact .inl ⟨hload, e, he⟩

def localConfig : RedisConfig := { RedisConfig.default with host := "127.0.0.1" }

theorem unsplit_outside_cluster_localConfig : ∃ config g,
    RedissonConfig.tryFrom id localConfig = .ok config ∧
    prepare (BatchService.new config BatchOptions.defaults) (oneNodeEnvironment (.ok (.integer 1)))
      incrementQueue = .ok [g] ∧ g.mse = ⟨localServer, none⟩ := by
  have hmode : ∀ node db, (ServerModeConfig.standalone node db).kind ≠ .cluster := by
    rintro node db h
    cases h
  obtain ⟨host, hhost, ⟨⟨n, -, e, he⟩, -⟩ | ⟨g, hp, hmse, -, -⟩⟩ :=
    @unsplit_outside_cluster id localConfig _ (fun _ => "") (oneNodeEnvironment (.ok (.integer 1)))
      incrementQueue rfl (hmode ⟨"127.0.0.1", 6379⟩ 0) BatchOptions.defaults (fun _ => none)
      (fun _ => rfl) (List.cons_ne_nil _ _)
  · cases he
  · cases hhost
    exact ⟨_, g, rfl, hp, hmse⟩

end Unsplit

end Redisson

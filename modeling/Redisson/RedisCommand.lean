import Redisson.FredTypes

/-! `RedisCommand` and the two classifications the batch services make of it: whether
a replica may serve it, and which key routes it. `executeOn` builds its wire form. -/

namespace Redisson

inductive RedisCommand
  | get (key : Key)
  | set (key : Key) (value : Value) (expiry : Option Expiration) (options : Option SetOptions)
  | del (keys : List Key)
  | exists (keys : List Key)
  | expire (key : Key) (seconds : Int)
  | pexpire (key : Key) (milliseconds : Int)
  | ttl (key : Key)
  | pttl (key : Key)
  | persist (key : Key)
  | hGet (key field : Key)
  | hSet (key field : Key) (value : Value)
  | hGetAll (key : Key)
  | hDel (key : Key) (fields : List Key)
  | hExists (key field : Key)
  | hLen (key : Key)
  | hIncrBy (key field : Key) (delta : Int)
  | sAdd (key : Key) (members : List Value)
  | sRem (key : Key) (members : List Value)
  | sMembers (key : Key)
  | sIsMember (key : Key) (member : Value)
  | sCard (key : Key)
  | zAdd (key : Key) (score : UInt64) (member : Value) (options : Option SetOptions)
  | zRem (key : Key) (members : List Value)
  | zScore (key : Key) (member : Value)
  | zCard (key : Key)
  | eval (script : String) (keys : List Key) (args : List Value)
  | evalSha (sha : String) (keys : List Key) (args : List Value)
  | evalShaRo (sha : String) (keys : List Key) (args : List Value)
  | sort (key : Key)
  | sortRo (key : Key)
  | wait (numreplicas timeout : Int)
  | waitAof (numlocal numreplicas timeout : Int)

namespace RedisCommand

def isReadOnly : RedisCommand → Bool
  | get .. | .exists .. | ttl .. | pttl .. | hGet .. | hGetAll .. | hExists .. | hLen ..
  | sMembers .. | sIsMember .. | sCard .. | zScore .. | zCard .. | evalShaRo .. | sortRo .. => true
  | _ => false

def routingKey : RedisCommand → Option Key
  | get key => some key
  | set key .. => some key
  | del keys => keys.head?
  | .exists keys => keys.head?
  | expire key _ => some key
  | pexpire key _ => some key
  | ttl key => some key
  | pttl key => some key
  | persist key => some key
  | hGet key _ => some key
  | hSet key .. => some key
  | hGetAll key => some key
  | hDel key _ => some key
  | hExists key _ => some key
  | hLen key => some key
  | hIncrBy key .. => some key
  | sAdd key _ => some key
  | sRem key _ => some key
  | sMembers key => some key
  | sIsMember key _ => some key
  | sCard key => some key
  | zAdd key .. => some key
  | zRem key _ => some key
  | zScore key _ => some key
  | zCard key => some key
  | evalSha _ keys _ | evalShaRo _ keys _ => keys.head?
  | eval _ keys _ => keys.head?
  | sort key | sortRo key => some key
  | wait .. | waitAof .. => none

def scriptArgs (body : String) (keys : List Key) (args : List Value) : List Value :=
  [.string body, .integer keys.length] ++ keys.map .bytes ++ args

/-- `execute_on`: the call put on a pipeline or client. EVALSHA_RO and SORT_RO are
downgraded here without probing. -/
def executeOn : RedisCommand → Call
  | get key => .method "get" [.key key]
  | set key value expiry options =>
    .method "set" [.key key, .value value, .expiry expiry, .options options, .flag false]
  | del keys => .method "del" [.keys keys]
  | .exists keys => .method "exists" [.keys keys]
  | expire key seconds => .method "expire" [.key key, .integer seconds, .absent]
  | pexpire key milliseconds => .method "pexpire" [.key key, .integer milliseconds, .absent]
  | ttl key => .method "ttl" [.key key]
  | pttl key => .method "pttl" [.key key]
  | persist key => .method "persist" [.key key]
  | hGet key field => .method "hget" [.key key, .field field]
  | hSet key field value => .method "hset" [.key key, .fieldValue field value]
  | hGetAll key => .method "hgetall" [.key key]
  | hDel key fields => .method "hdel" [.key key, .keys fields]
  | hExists key field => .method "hexists" [.key key, .field field]
  | hLen key => .method "hlen" [.key key]
  | hIncrBy key field delta => .method "hincrby" [.key key, .field field, .integer delta]
  | sAdd key members => .method "sadd" [.key key, .values members]
  | sRem key members => .method "srem" [.key key, .values members]
  | sMembers key => .method "smembers" [.key key]
  | sIsMember key member => .method "sismember" [.key key, .value member]
  | sCard key => .method "scard" [.key key]
  | zAdd key score member options =>
    .method "zadd" [.key key, .options options, .absent, .flag false, .flag false,
      .scored score member]
  | zRem key members => .method "zrem" [.key key, .values members]
  | zScore key member => .method "zscore" [.key key, .value member]
  | zCard key => .method "zcard" [.key key]
  | eval script keys args => .custom "EVAL" .firstKey (scriptArgs script keys args)
  | evalSha sha keys args | evalShaRo sha keys args =>
    .custom "EVALSHA" .firstKey (scriptArgs sha keys args)
  | sort key | sortRo key => .custom "SORT" .firstKey [.bytes key]
  | wait numreplicas timeout => .method "wait" [.integer numreplicas, .integer timeout]
  | waitAof numlocal numreplicas timeout =>
    .custom "WAITAOF" .firstKey [.integer numlocal, .integer numreplicas, .integer timeout]

def scriptBody : RedisCommand → Option String
  | eval script _ _ => some script
  | evalSha sha _ _ | evalShaRo sha _ _ => some sha
  | _ => none

theorem executeOn_slot_of_script {keyslot : Key → Slot} {cmd : RedisCommand} {body : String}
    (h : cmd.scriptBody = some body) :
    (executeOn cmd).slot keyslot = some (keyslot (utf8Bytes body)) := by
  cases cmd with
  | eval script | evalSha script | evalShaRo script =>
    obtain rfl : script = body := by simpa [scriptBody] using h
    simp [executeOn, scriptArgs, Call.slot, Value.hashedBytes, List.findSome?_cons]
  | _ => simp [scriptBody] at h

theorem executeOn_slot_of_key {keyslot : Key → Slot} {cmd : RedisCommand}
    (h : cmd.scriptBody = none) :
    (executeOn cmd).slot keyslot = cmd.routingKey.map keyslot := by
  cases cmd with
  | eval | evalSha | evalShaRo => simp [scriptBody] at h
  | del keys | «exists» keys =>
    cases keys <;> simp [executeOn, Call.slot, routingKey, Arg.hashedKey]
  | _ => simp [executeOn, Call.slot, routingKey, Arg.hashedKey, Value.hashedBytes,
      List.findSome?_cons]

end RedisCommand

end Redisson

import Redisson.RecentlyUsed
import Redisson.ServiceManager

/-! `SHA_CACHE` over the life of the process: which digests `calc_sha` still has, after any
requests to the two script caches. Each request holds the lock for one script at a time. -/

namespace Redisson

open RecentlyUsed

variable {sha1 : String → String}

namespace ShaCache

variable (c : ShaCache sha1)

def keys : List String := c.entries.map Prod.fst

/-- `calc_sha` finds the digest and does not compute it. -/
def hits (script : String) : Bool := (c.entries.find? fun e => e.1 = script).isSome

theorem entries_eq : c.entries = c.keys.map fun script => (script, sha1 script) := by
  have hentry : ∀ e ∈ c.entries, e = (e.1, sha1 e.1) := fun e he => Prod.ext rfl (c.coherent e he)
  unfold keys
  rw [List.map_map]
  exact (List.map_id'' (fun _ => rfl) c.entries).symm.trans (List.map_congr_left hentry)

theorem hits_iff {script : String} : c.hits script = true ↔ script ∈ c.keys := by
  unfold hits keys
  rw [List.find?_isSome, List.mem_map]
  simp

theorem keys_promote (script sha : String) (h : sha = sha1 script) :
    (c.promote script sha h).keys = (touch script c.keys).take shaCacheCapacity := by
  unfold promote keys touch
  rw [List.map_take, List.map_cons, List.filter_map]
  rfl

theorem keys_calcSha (script : String) :
    (c.calcSha script).2.keys = (touch script c.keys).take shaCacheCapacity := by
  unfold calcSha
  split
  · next e he => exact c.keys_promote script e.2 (sha_of_find he)
  · exact c.keys_promote script (sha1 script) rfl

end ShaCache

inductive ShaRequest
  | calcSha (script : String)
  | isCached (server : Server) (script : String)
  | cacheScripts (server : Server) (scripts : List String)

def ShaRequest.scripts : ShaRequest → List String
  | calcSha script | isCached _ script => [script]
  | cacheScripts _ scripts => scripts

namespace ScriptCaches

def perform (c : ScriptCaches sha1) : ShaRequest → ScriptCaches sha1
  | .calcSha script => (c.calcSha script).2
  | .isCached server script => (c.isCached server script).2
  | .cacheScripts server scripts => c.cacheScripts server scripts

def performAll (c : ScriptCaches sha1) (rs : List ShaRequest) : ScriptCaches sha1 :=
  rs.foldl perform c

def askKeys (keys : List String) (script : String) : List String :=
  (touch script keys).take shaCacheCapacity

theorem keys_calcShas (c : ScriptCaches sha1) (scripts : List String) :
    (c.calcShas scripts).2.shaCache.keys = scripts.foldl askKeys c.shaCache.keys := by
  induction scripts generalizing c with
  | nil => rfl
  | cons script scripts ih =>
    have hnext : (c.calcSha script).2.shaCache.keys = askKeys c.shaCache.keys script :=
      c.shaCache.keys_calcSha script
    have hrest := ih (c.calcSha script).2
    rw [hnext] at hrest
    exact hrest

theorem keys_perform (c : ScriptCaches sha1) (r : ShaRequest) :
    (c.perform r).shaCache.keys = r.scripts.foldl askKeys c.shaCache.keys := by
  cases r with
  | calcSha script => exact c.shaCache.keys_calcSha script
  | isCached server script => exact c.shaCache.keys_calcSha script
  | cacheScripts server scripts => exact c.keys_calcShas scripts

theorem keys_performAll (c : ScriptCaches sha1) (rs : List ShaRequest) :
    (c.performAll rs).shaCache.keys =
      (rs.flatMap ShaRequest.scripts).foldl askKeys c.shaCache.keys := by
  induction rs generalizing c with
  | nil => rfl
  | cons r rs ih =>
    rw [List.flatMap_cons, List.foldl_append, ← keys_perform]
    exact ih (c.perform r)

theorem foldl_askKeys (asked : List String) :
    asked.foldl askKeys [] = cached shaCacheCapacity asked.reverse := by
  induction asked using List.reverseRecOn with
  | nil => rfl
  | append_singleton asked script ih =>
    rw [List.foldl_append, ih, List.reverse_append]
    rfl

/-- After any requests the cache has the digests of the 500 scripts asked for most recently, and
`calc_sha` computes one afresh exactly for a script that was never asked for, or for which 500
other scripts have been asked for since. -/
theorem shaCache_recency (rs : List ShaRequest) (script : String) :
    ((empty : ScriptCaches sha1).performAll rs).shaCache.entries =
        ((recency (rs.flatMap ShaRequest.scripts).reverse).take shaCacheCapacity).map
          (fun script => (script, sha1 script)) ∧
      (((empty : ScriptCaches sha1).performAll rs).shaCache.hits script = true ↔
        script ∈ rs.flatMap ShaRequest.scripts ∧
          (recency ((rs.flatMap ShaRequest.scripts).reverse.takeWhile (· ≠ script))).length <
            shaCacheCapacity) := by
  have hkeys : ((empty : ScriptCaches sha1).performAll rs).shaCache.keys =
      cached shaCacheCapacity (rs.flatMap ShaRequest.scripts).reverse := by
    rw [keys_performAll, ← foldl_askKeys]
    rfl
  constructor
  · rw [ShaCache.entries_eq, hkeys, cached_eq_take]
  · rw [ShaCache.hits_iff, hkeys, mem_cached_iff, List.mem_reverse]

end ScriptCaches

end Redisson

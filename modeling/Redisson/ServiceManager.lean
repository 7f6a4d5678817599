import Redisson.FredTypes
import Mathlib.Data.List.AList
import Mathlib.Data.Finset.Basic

/-! The two process-wide script caches of `ServiceManager`: `SHA_CACHE`, an LRU map from
script to SHA-1, and `SCRIPT_SHA_CACHE`, the SHAs known to be loaded on each node. -/

namespace Redisson

def shaCacheCapacity : Nat := 500

/-- `SHA_CACHE`, most recently used entry first. -/
structure ShaCache (sha1 : String → String) where
  entries : List (String × String)
  coherent : ∀ e ∈ entries, e.2 = sha1 e.1
  bounded : entries.length ≤ shaCacheCapacity

namespace ShaCache

variable {sha1 : String → String}

def empty : ShaCache sha1 := ⟨[], by simp, by simp⟩

/-- `LruCache::put`, and the promotion done by `LruCache::get`: the entry moves to the
front and the least recently used one is evicted. -/
def promote (c : ShaCache sha1) (script sha : String) (h : sha = sha1 script) : ShaCache sha1 where
  entries := ((script, sha) :: c.entries.filter (fun e => e.1 ≠ script)).take shaCacheCapacity
  coherent e he := by
    rcases List.mem_cons.mp (List.mem_of_mem_take he) with rfl | he
    · exact h
    · exact c.coherent e (List.mem_filter.mp he).1
  bounded := List.length_take_le _ _

theorem sha_of_find {c : ShaCache sha1} {script : String} {e : String × String}
    (h : c.entries.find? (fun e => e.1 = script) = some e) : e.2 = sha1 script := by
  have hs : e.1 = script := by simpa using List.find?_some h
  exact hs ▸ c.coherent e (List.mem_of_find?_eq_some h)

def calcSha (c : ShaCache sha1) (script : String) : String × ShaCache sha1 :=
  match h : c.entries.find? (fun e => e.1 = script) with
  | some e => (e.2, c.promote script e.2 (sha_of_find h))
  | none => (sha1 script, c.promote script (sha1 script) rfl)

/-- Whatever the cache has evicted, `calc_sha` answers the SHA-1 of its argument. -/
@[simp] theorem calcSha_fst (c : ShaCache sha1) (script : String) :
    (c.calcSha script).1 = sha1 script := by
  unfold calcSha
  split
  · next e h => exact sha_of_find h
  · rfl

end ShaCache

structure ScriptCaches (sha1 : String → String) where
  shaCache : ShaCache sha1
  scriptShaCache : AList (fun _ : Server => Finset String)

namespace ScriptCaches

variable {sha1 : String → String}

def empty : ScriptCaches sha1 := ⟨.empty, ∅⟩

def calcSha (c : ScriptCaches sha1) (script : String) : String × ScriptCaches sha1 :=
  let (sha, shaCache) := c.shaCache.calcSha script
  (sha, { c with shaCache })

@[simp] theorem calcSha_fst (c : ScriptCaches sha1) (script : String) :
    (c.calcSha script).1 = sha1 script := by simp [calcSha]

def isCached (c : ScriptCaches sha1) (server : Server) (script : String) :
    Bool × ScriptCaches sha1 :=
  let (sha, c) := c.calcSha script
  (((c.scriptShaCache.lookup server).map fun known => decide (sha ∈ known)).getD false, c)

def calcShas (c : ScriptCaches sha1) : List String → Finset String × ScriptCaches sha1
  | [] => (∅, c)
  | script :: scripts =>
    let (sha, c) := c.calcSha script
    let (shas, c) := c.calcShas scripts
    (insert sha shas, c)

def cacheScripts (c : ScriptCaches sha1) (server : Server) (scripts : List String) :
    ScriptCaches sha1 :=
  let (shas, c) := c.calcShas scripts
  let known := (c.scriptShaCache.lookup server).getD ∅
  { c with scriptShaCache := c.scriptShaCache.insert server (known ∪ shas) }

end ScriptCaches

end Redisson

import RulesAssist.Coverage.Page
import RulesAssist.Coverage.Watcher
import RulesAssist.Keyed
import RulesAssist.Symbol.Method

/-! Coverage entries that are kept by the path of their page until the page changes.

Every eviction of a path raises the path's generation, whether or not entries were kept for it. A load
that finds a generation other than the one it started with keeps nothing.
-/

set_option autoImplicit false

namespace RulesAssist.Coverage

open FilePath (Component)

/-- Pages are known by the components of their paths. -/
abbrev PageKey := List Component

/-- A list of entries that callers share. -/
abbrev Listing := Shared (List Entry)

structure Cache where
  listings : List (PageKey × Listing)
  generations : List (PageKey × Nat)
  subscriptions : List (PageKey × Handle)
  closed : Bool

namespace Cache

def empty : Cache := { listings := [], generations := [], subscriptions := [], closed := false }

def listing? (cache : Cache) (key : PageKey) : Option Listing :=
  cache.listings.lookup key

def holds (cache : Cache) (key : PageKey) : Bool :=
  (cache.listing? key).isSome

def generation (cache : Cache) (key : PageKey) : Nat :=
  (cache.generations.lookup key).getD 0

def isWatched (cache : Cache) (key : PageKey) : Bool :=
  (cache.subscriptions.lookup key).isSome

def evict (cache : Cache) (key : PageKey) : Cache :=
  { cache with
    listings := Keyed.erase key cache.listings
    generations := Keyed.insert key (cache.generation key + 1) cache.generations }

def keep (cache : Cache) (key : PageKey) (listing : Listing) : Cache :=
  { cache with listings := Keyed.insert key listing cache.listings }

def record (cache : Cache) (key : PageKey) (handle : Handle) : Cache :=
  { cache with subscriptions := Keyed.insert key handle cache.subscriptions }

/-- Close the cache: nothing is kept from now on, and the handles returned are to be released. -/
def close (cache : Cache) : List Handle × Cache :=
  (cache.subscriptions.map (·.2), { cache with listings := [], subscriptions := [], closed := true })

@[simp] theorem listing?_evict (cache : Cache) (key wanted : PageKey) :
    (cache.evict key).listing? wanted = if wanted = key then none else cache.listing? wanted :=
  Keyed.lookup_erase key wanted cache.listings

@[simp] theorem generation_evict (cache : Cache) (key wanted : PageKey) :
    (cache.evict key).generation wanted =
      if wanted = key then cache.generation key + 1 else cache.generation wanted := by
  simp only [evict, generation, Keyed.lookup_insert]
  split <;> rfl

@[simp] theorem isWatched_evict (cache : Cache) (key wanted : PageKey) :
    (cache.evict key).isWatched wanted = cache.isWatched wanted := rfl

@[simp] theorem listing?_keep (cache : Cache) (key wanted : PageKey) (listing : Listing) :
    (cache.keep key listing).listing? wanted =
      if wanted = key then some listing else cache.listing? wanted :=
  Keyed.lookup_insert key wanted listing cache.listings

@[simp] theorem generation_keep (cache : Cache) (key wanted : PageKey) (listing : Listing) :
    (cache.keep key listing).generation wanted = cache.generation wanted := rfl

@[simp] theorem isWatched_keep (cache : Cache) (key wanted : PageKey) (listing : Listing) :
    (cache.keep key listing).isWatched wanted = cache.isWatched wanted := rfl

@[simp] theorem listing?_record (cache : Cache) (key wanted : PageKey) (handle : Handle) :
    (cache.record key handle).listing? wanted = cache.listing? wanted := rfl

@[simp] theorem generation_record (cache : Cache) (key wanted : PageKey) (handle : Handle) :
    (cache.record key handle).generation wanted = cache.generation wanted := rfl

@[simp] theorem isWatched_record (cache : Cache) (key wanted : PageKey) (handle : Handle) :
    (cache.record key handle).isWatched wanted = (wanted == key || cache.isWatched wanted) := by
  simp only [record, isWatched, Keyed.lookup_insert]
  by_cases same : wanted = key <;> simp [same]

theorem listing?_foldl_evict (notices : List PageKey) (cache : Cache) (wanted : PageKey) :
    (notices.foldl evict cache).listing? wanted =
      if wanted ∈ notices then none else cache.listing? wanted := by
  induction notices generalizing cache with
  | nil => simp
  | cons notice rest ih =>
    rw [List.foldl_cons, ih, listing?_evict]
    by_cases later : wanted ∈ rest <;> by_cases first : wanted = notice <;> simp [later, first]

theorem generation_foldl_evict (notices : List PageKey) (cache : Cache) (wanted : PageKey) :
    (notices.foldl evict cache).generation wanted =
      cache.generation wanted + notices.count wanted := by
  induction notices generalizing cache with
  | nil => simp
  | cons notice rest ih =>
    rw [List.foldl_cons, ih, generation_evict, List.count_cons]
    by_cases first : wanted = notice
    · subst first
      simp only [if_true, beq_self_eq_true]
      omega
    · simp [first, Ne.symm first]

/-- Evictions leave the subscriptions as they are, and do not open a closed cache. -/
theorem foldl_evict_eq (notices : List PageKey) (cache : Cache) :
    (notices.foldl evict cache).subscriptions = cache.subscriptions ∧
      (notices.foldl evict cache).closed = cache.closed := by
  induction notices generalizing cache with
  | nil => exact ⟨rfl, rfl⟩
  | cons notice rest ih => exact ih (cache.evict notice)

end Cache

structure Store where
  cache : Cache
  watcher : Watcher PageKey
  fresh : Nat

namespace Store

def empty : Store := { cache := .empty, watcher := .empty, fresh := 0 }

def discard (store : Store) (key : PageKey) : Store :=
  { store with cache := store.cache.evict key }

def notify (store : Store) (path : PageKey) : Nat × Store :=
  let notices := store.watcher.notices path
  (notices.length, { store with cache := notices.foldl Cache.evict store.cache })

def release (store : Store) (handle : Handle) : Store :=
  { store with watcher := store.watcher.unsubscribe handle }

def close (store : Store) : Store :=
  let (handles, cache) := store.cache.close
  handles.foldl release { store with cache }

end Store

end RulesAssist.Coverage

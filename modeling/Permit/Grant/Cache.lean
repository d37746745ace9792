import Permit.Grant.Compile

/-!
Compiled trees kept for later, keyed by their list of paths. The cache holds a
bounded number of trees; when it is full the one that was used longest ago makes
room. Each tree carries the number of the compilation that built it, which tells
one tree from an equal one built later.

* `Cache.find?` looks a tree up; `Cache.use` and `Cache.store` keep the order of use.
-/
namespace Permit

structure Cached where
  paths : List String
  tree : GrantTree
  /-- The number of the compilation that built the tree. -/
  build : Nat
  /-- The tree is the one that the paths compile to, under some limit on their segments. -/
  compiled : ∃ limit, GrantTree.compile limit (paths.map .text) = .ok tree
deriving Repr

structure Cache where
  capacity : Nat
  /-- The trees, the one used last in front. -/
  entries : List Cached := []
  hits : Nat := 0
  misses : Nat := 0
  /-- The number of trees built so far; clearing does not reset it. -/
  builds : Nat := 0
deriving Repr

namespace Cache

def find? (cache : Cache) (paths : List String) : Option Cached :=
  cache.entries.find? (·.paths == paths)

/-- Counts a hit and moves the tree to the front. -/
def use (cache : Cache) (entry : Cached) : Cache :=
  { cache with
    entries := entry :: cache.entries.filter (·.paths != entry.paths)
    hits := cache.hits + 1 }

/-- Counts a look-up that found nothing. -/
def miss (cache : Cache) : Cache := { cache with misses := cache.misses + 1 }

/-- Keeps a tree that has just been built, as the one used last. -/
def store (cache : Cache) (paths : List String) (tree : GrantTree)
    (compiled : ∃ limit, GrantTree.compile limit (paths.map .text) = .ok tree) : Cache :=
  let entry : Cached := ⟨paths, tree, cache.builds, compiled⟩
  { cache with
    entries := (entry :: cache.entries.filter (·.paths != paths)).take cache.capacity
    builds := cache.builds + 1 }

/-- Forgets all trees and counts. -/
def clear (cache : Cache) : Cache := { cache with entries := [], hits := 0, misses := 0 }

theorem length_store_le (cache : Cache) (paths : List String) (tree : GrantTree)
    (compiled : ∃ limit, GrantTree.compile limit (paths.map .text) = .ok tree) :
    (cache.store paths tree compiled).entries.length ≤ cache.capacity := by
  simp only [store, List.length_take]
  exact Nat.min_le_left ..

end Cache
end Permit

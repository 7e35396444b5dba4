/-!
# Published values

A value that many read and one replaces. Readers who took a value before a replacement keep
it; a watcher remembers which revision it saw last, and so notices a replacement.
-/

namespace Interchange

/-- The current value and the number of replacements that led to it. -/
structure Published (α : Type) where
  current : α
  revision : Nat := 0
deriving DecidableEq

/-- The revision that a watcher saw last. -/
structure Watcher where
  seen : Nat
deriving DecidableEq

namespace Published

/-- Puts a value in place of the current one, which is returned. -/
def replace (p : Published α) (a : α) : Published α × α := (⟨a, p.revision + 1⟩, p.current)

/-- A watcher that has seen the current value. -/
def watch (p : Published α) : Watcher := ⟨p.revision⟩

/-- Whether there is a value that the watcher has not seen. -/
def changedSince (p : Published α) (w : Watcher) : Bool := p.revision ≠ w.seen

end Published

end Interchange

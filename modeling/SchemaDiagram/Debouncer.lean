namespace SchemaDiagram

/-- A value that is held back until no newer one has come for a quiet time: that time, and the value with
the time from which it may be had. Times are milliseconds, given by the caller. -/
structure Debouncer (α : Type) where
  window : Nat
  pending : Option (α × Nat) := none
  deriving Inhabited, DecidableEq

namespace Debouncer

variable {α : Type}

/-- Holds the value back, in place of the one held back so far. -/
def schedule (d : Debouncer α) (value : α) (now : Nat) : Debouncer α :=
  { d with pending := some (value, now + d.window) }

def cancel (d : Debouncer α) : Debouncer α :=
  { d with pending := none }

def value? (d : Debouncer α) : Option α := d.pending.map Prod.fst

/-- The time from which the value held back may be had. -/
def deadline? (d : Debouncer α) : Option Nat := d.pending.map Prod.snd

def isPending (d : Debouncer α) : Bool := d.pending.isSome

/-- Hands the value out, whatever the time. -/
def flush (d : Debouncer α) : Debouncer α × Option α := (d.cancel, d.value?)

/-- Hands the value out if its time has come. -/
def poll (d : Debouncer α) (now : Nat) : Debouncer α × Option α :=
  if d.deadline?.any (· ≤ now) then d.flush else (d, none)

@[simp] theorem value?_schedule (d : Debouncer α) (value : α) (now : Nat) :
    (d.schedule value now).value? = some value := rfl

@[simp] theorem deadline?_schedule (d : Debouncer α) (value : α) (now : Nat) :
    (d.schedule value now).deadline? = some (now + d.window) := rfl

@[simp] theorem isPending_cancel (d : Debouncer α) : d.cancel.isPending = false := rfl

theorem poll_of_lt {d : Debouncer α} {now deadline : Nat} (h : d.deadline? = some deadline)
    (hlt : now < deadline) : d.poll now = (d, none) := by
  simp [poll, h, Nat.not_le.mpr hlt]

theorem poll_of_le {d : Debouncer α} {now deadline : Nat} (h : d.deadline? = some deadline)
    (hle : deadline ≤ now) : d.poll now = d.flush := by
  simp [poll, h, hle]

end Debouncer

end SchemaDiagram

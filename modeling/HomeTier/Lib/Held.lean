import Mathlib.Data.List.Basic

/-! # Resources behind one reference

A component opens resources (tracks, handlers, timers) and keeps a reference to
the last one only. What it opens takes the place of the reference; what it
closes is what the reference names. A resource is lost when it is open and the
reference names another.
-/

namespace HomeTier.Lib

structure Held where
  live : List Nat
  next : Nat
  current : Option Nat
deriving DecidableEq

namespace Held

def none : Held := ⟨[], 0, .none⟩

def acquire (h : Held) : Held := ⟨h.next :: h.live, h.next + 1, some h.next⟩

def release (h : Held) : Held :=
  match h.current with
  | some n => { h with live := h.live.filter (· ≠ n), current := .none }
  | .none => h

/-- The resource ends by itself. -/
def lose (h : Held) (n : Nat) : Held := { h with live := h.live.filter (· ≠ n) }

/-- Nothing is lost. -/
def OnlyCurrent (h : Held) : Prop := ∀ n ∈ h.live, h.current = some n

variable {h : Held}

theorem onlyCurrent_none : none.OnlyCurrent := fun _ hn => absurd hn List.not_mem_nil

/-- Opening loses nothing when nothing is open. -/
theorem onlyCurrent_acquire (hl : h.live = []) : h.acquire.OnlyCurrent := by
  intro n hn
  unfold acquire at hn ⊢
  rw [hl, List.mem_singleton] at hn
  rw [hn]

theorem release_live_subset (h : Held) : ∀ n ∈ h.release.live, n ∈ h.live := by
  intro n hn
  unfold release at hn
  split at hn
  · exact (List.mem_filter.mp hn).1
  · exact hn

/-- Closing leaves nothing open, unless something was lost. -/
theorem release_live (ho : h.OnlyCurrent) : h.release.live = [] := by
  unfold release
  split
  · rename_i m hm
    rw [List.filter_eq_nil_iff]
    intro n hn
    have hnm : some m = some n := hm.symm.trans (ho n hn)
    simpa using (Option.some.inj hnm).symm
  · rename_i hm
    rw [List.eq_nil_iff_forall_not_mem]
    intro n hn
    exact absurd (hm.symm.trans (ho n hn)) nofun

theorem onlyCurrent_release (ho : h.OnlyCurrent) : h.release.OnlyCurrent := by
  intro n hn
  rw [release_live ho] at hn
  exact absurd hn List.not_mem_nil

theorem lose_live_subset (h : Held) (m : Nat) : ∀ n ∈ (h.lose m).live, n ∈ h.live :=
  fun _ hn => (List.mem_filter.mp hn).1

theorem onlyCurrent_lose (ho : h.OnlyCurrent) (m : Nat) : (h.lose m).OnlyCurrent :=
  fun n hn => ho n (lose_live_subset h m n hn)

theorem lose_live_nil (hl : h.live = []) (m : Nat) : (h.lose m).live = [] := by
  unfold lose
  rw [hl]
  rfl

end Held

end HomeTier.Lib

import Mathlib.Data.List.Nodup
import Mathlib.Data.List.Perm.Subperm
import Mathlib.Tactic.Common

/-- Entries that are opened once and closed at most once, never before they are opened. -/
structure Ledger (ι : Type*) where
  opened : List ι
  closed : List ι
  opened_nodup : opened.Nodup
  closed_nodup : closed.Nodup
  closed_subset : closed ⊆ opened

namespace Ledger

variable {ι : Type*}

def empty : Ledger ι where
  opened := []
  closed := []
  opened_nodup := List.nodup_nil
  closed_nodup := List.nodup_nil
  closed_subset := fun _ => id

def openEntry (l : Ledger ι) (i : ι) (fresh : i ∉ l.opened) : Ledger ι where
  opened := l.opened ++ [i]
  closed := l.closed
  opened_nodup := l.opened_nodup.append (List.nodup_singleton i) (by simpa using fresh)
  closed_nodup := l.closed_nodup
  closed_subset := fun _ member => List.mem_append_left _ (l.closed_subset member)

def closeEntry (l : Ledger ι) (i : ι) (known : i ∈ l.opened) (unclosed : i ∉ l.closed) : Ledger ι where
  opened := l.opened
  closed := l.closed ++ [i]
  opened_nodup := l.opened_nodup
  closed_nodup := l.closed_nodup.append (List.nodup_singleton i) (by simpa using unclosed)
  closed_subset := by
    intro j member
    rcases List.mem_append.mp member with earlier | last
    · exact l.closed_subset earlier
    · exact List.mem_singleton.mp last ▸ known

theorem length_closed_le (l : Ledger ι) : l.closed.length ≤ l.opened.length :=
  (l.closed_nodup.subperm l.closed_subset).length_le

theorem length_closed_lt (l : Ledger ι) {i : ι} (known : i ∈ l.opened) (unclosed : i ∉ l.closed) :
    l.closed.length < l.opened.length := by
  have bound := (l.closeEntry i known unclosed).length_closed_le
  simp only [closeEntry, List.length_append, List.length_singleton] at bound
  omega

variable [DecidableEq ι]

def active (l : Ledger ι) : List ι := l.opened.filter (· ∉ l.closed)

theorem length_active (l : Ledger ι) : l.active.length + l.closed.length = l.opened.length := by
  have partition := List.length_eq_length_filter_add (l := l.opened) (· ∈ l.closed)
  have closed : (l.opened.filter (· ∈ l.closed)).Perm l.closed := by
    rw [List.perm_ext_iff_of_nodup (l.opened_nodup.filter _) l.closed_nodup]
    intro i
    have included := @l.closed_subset i
    simp only [List.mem_filter, decide_eq_true_eq]
    tauto
  rw [closed.length_eq] at partition
  simp only [active, decide_not]
  omega

end Ledger

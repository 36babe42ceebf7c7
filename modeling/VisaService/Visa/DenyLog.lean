import Mathlib.Data.List.DropRight
import VisaService.Visa.Request
import VisaService.Lib.Recency

/-!
# The log of recent denials

A denial is recorded under its flow, without the source port, and its reason. A repeat raises the
count of the entry and moves it to the newest end; beyond its size the log drops the oldest.

The keys and times of the entries form a recency window (`record_touch`), so that what was dropped
before does not matter to what a query lists (`recent_lists_latest`).
-/
namespace VisaService

open Lib

def denyLogSize : Nat := 500

/-- What denials are collapsed on. -/
structure DenyKey where
  sourceAddr : IpAddr
  destAddr : IpAddr
  protocol : UInt8
  destPort : UInt16
  denyCode : String
  deriving DecidableEq

structure DenyEntry extends DenyKey where
  count : Nat
  lastDenyMs : Nat

structure Denial where
  ft : FiveTuple
  code : DenyCode
  nowMs : Nat

def denyCodeName : DenyCode → String
  | .noReason => "NoReason"
  | .noMatch => "NoMatch"
  | .denied => "Denied"
  | .sourceNotFound => "SourceNotFound"
  | .destNotFound => "DestNotFound"
  | .sourceAuthError => "SourceAuthError"
  | .destAuthError => "DestAuthError"
  | .quotaExceeded => "QuotaExceeded"
  | .noRoute => "NoRoute"

def Denial.key (denial : Denial) : DenyKey :=
  ⟨denial.ft.sourceAddr, denial.ft.destAddr, denial.ft.l4Protocol, denial.ft.destPort,
    denyCodeName denial.code⟩

def DenyEntry.isFor (entry : DenyEntry) (denial : Denial) : Bool := entry.toDenyKey = denial.key

def DenyEntry.stamp (entry : DenyEntry) : DenyKey × Nat := (entry.toDenyKey, entry.lastDenyMs)

def Denial.stamp (denial : Denial) : DenyKey × Nat := (denial.key, denial.nowMs)

namespace DenyLog

/-- The entries, oldest first. The oldest are popped until the size is kept. -/
def recordAtMs (entries : List DenyEntry) (denial : Denial) : List DenyEntry :=
  match entries.find? (·.isFor denial) with
  | some entry => entries.eraseP (·.isFor denial) ++
      [{ entry with count := entry.count + 1, lastDenyMs := denial.nowMs }]
  | none => (entries ++ [DenyEntry.mk denial.key 1 denial.nowMs]).rtake denyLogSize

def recent (entries : List DenyEntry) (since limit : Option Nat) : List DenyEntry :=
  (entries.reverse.filter fun entry => since.all (· ≤ entry.lastDenyMs)).take
    (limit.getD (2 ^ 64 - 1))

def after (history : List Denial) : List DenyEntry := history.foldl recordAtMs []

variable {entries : List DenyEntry} {denial : Denial} {history : List Denial}

theorem isFor_iff {entry : DenyEntry} : entry.isFor denial = true ↔ entry.toDenyKey = denial.key :=
  decide_eq_true_iff

theorem eraseP_of_distinct (distinct : entries.Pairwise (·.toDenyKey ≠ ·.toDenyKey)) :
    entries.eraseP (·.isFor denial) = entries.filter (! ·.isFor denial) := by
  induction entries with
  | nil => rfl
  | cons first rest ih =>
    obtain ⟨differ, distinct⟩ := List.pairwise_cons.mp distinct
    rw [List.eraseP_cons, List.filter_cons]
    cases isHit : first.isFor denial with
    | false => simpa using ih distinct
    | true =>
      refine (List.filter_eq_self.mpr fun other member => ?_).symm
      rw [Bool.not_eq_true', ← Bool.not_eq_true, isFor_iff, ← isFor_iff.mp isHit]
      exact (differ other member).symm

/-- Recording a denial moves its stamp to the front of the window. -/
theorem record_touch (distinct : entries.Pairwise (·.toDenyKey ≠ ·.toDenyKey))
    (small : entries.length ≤ denyLogSize) :
    (recordAtMs entries denial).reverse.map DenyEntry.stamp =
      touch denyLogSize (entries.reverse.map DenyEntry.stamp) denial.stamp := by
  have others : (entries.reverse.map DenyEntry.stamp).filter (·.1 ≠ denial.stamp.1) =
      (entries.filter (! ·.isFor denial)).reverse.map DenyEntry.stamp := by
    rw [List.filter_map, List.filter_reverse]
    congr 3
    exact funext fun entry => decide_not
  rw [touch, others]
  unfold recordAtMs
  split
  next entry found =>
    have hit := List.find?_some found
    have listed := List.mem_of_find?_eq_some found
    have fewer : (entries.eraseP (·.isFor denial)).length = entries.length - 1 :=
      List.length_eraseP_of_mem listed hit
    rw [eraseP_of_distinct distinct] at fewer ⊢
    rw [List.reverse_append, List.take_of_length_le]
    · exact congrArg (· :: _) (Prod.ext (isFor_iff.mp hit) rfl)
    · -- the entry that moves leaves its place free
      have := List.length_pos_of_mem listed
      simp only [List.length_cons, List.length_map, List.length_reverse]
      omega
  next absent =>
    have all : entries.filter (! ·.isFor denial) = entries := by
      simpa [List.filter_eq_self] using absent
    rw [all, List.rtake_eq_reverse_take_reverse, List.reverse_reverse, List.map_take,
      List.reverse_append]
    rfl

theorem after_concat : after (history ++ [denial]) = recordAtMs (after history) denial :=
  List.foldl_concat ..

theorem after_window : (after history).reverse.map DenyEntry.stamp =
    (recency (history.reverse.map Denial.stamp)).take denyLogSize := by
  induction history using List.reverseRecOn with
  | nil => rfl
  | append_singleton history denial ih =>
    -- both preconditions of a record can be read off the window
    have distinct : (after history).Pairwise (·.toDenyKey ≠ ·.toDenyKey) := by
      have window : List.Pairwise _ (List.take denyLogSize _) :=
        (recency_pairwise (history.reverse.map Denial.stamp)).take
      rw [← ih, List.pairwise_map, List.pairwise_reverse] at window
      exact window.imp Ne.symm
    have small : (after history).length ≤ denyLogSize := by
      have window := List.length_take_le denyLogSize (recency (history.reverse.map Denial.stamp))
      rwa [← ih, List.length_map, List.length_reverse] at window
    rw [after_concat, record_touch distinct small, ih, List.reverse_concat]
    exact touch_recency 499 denial.stamp (history.reverse.map Denial.stamp)

/-- After any denials, a query lists the entries of the keys that were denied most recently, with
the moment of the newest denial of each, in the order of these moments in the history. -/
theorem recent_lists_latest (history : List Denial) (since limit : Option Nat) :
    (recent (after history) since limit).map DenyEntry.stamp =
      (((recency (history.reverse.map Denial.stamp)).take denyLogSize).filter fun seen =>
        since.all (· ≤ seen.2)).take (limit.getD (2 ^ 64 - 1)) := by
  rw [← after_window, List.filter_map, ← List.map_take]
  rfl

end DenyLog

end VisaService

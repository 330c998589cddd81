import BuildMarkers.Proofs.Log.Lines
import BuildMarkers.Session.Stream
import Mathlib.Algebra.Order.Ring.Nat
import Mathlib.Data.Nat.SuccPred
/-!
# What a stream of markers comes to

The markers of a log can be told without a stream: every line that is a
diagnostic gives one, and the trail for it is that of all the lines before it
(`markersOf`). A stream that stands somewhere in the log still owes the markers
of the lines ahead, as seen from its trail, and the fault behind them (`ahead`).
One call of `next` takes the first of these and leaves the others
(`next_ahead`), so the calls in a row give all of them in order and nothing
after that.
-/

namespace BuildMarkers

namespace MarkerStream

variable {m : Matching} {trail : Trail} {line : List UInt8} {lines before : List (List UInt8)}
  {fault : Option Fault} {statistics : Statistics} {s : MarkerStream}

/-- The trail behind a line. -/
def trailBehind (trail : Trail) (line : List UInt8) : Trail :=
  match lineOf line with
  | .directory change => trail.follow change
  | _ => trail

/-- The marker of a line that is reached on the trail, if it is a diagnostic. -/
def markerOf? (m : Matching) (trail : Trail) (line : List UInt8) : Option Marker :=
  match lineOf line with
  | .diagnostic diagnostic => some (m.marker trail diagnostic).1
  | _ => none

/-- The markers of the lines, each on the trail behind all lines before it. -/
def markersOf (m : Matching) (trail : Trail) (lines : List (List UInt8)) : List Marker :=
  lines.zipIdx.filterMap fun (line, index) =>
    markerOf? m ((lines.take index).foldl trailBehind trail) line

theorem markersOf_cons : markersOf m trail (line :: lines) =
    (markerOf? m trail line).toList ++ markersOf m (trailBehind trail line) lines := by
  rw [markersOf, markersOf, List.zipIdx_cons, List.filterMap_cons, Nat.zero_add, List.zipIdx_succ,
    List.filterMap_map]
  simp only [List.take_zero, List.foldl_nil, Function.comp_def, List.take_succ_cons,
    List.foldl_cons]
  cases markerOf? m trail line with
  | none => rw [Option.toList_none, List.nil_append]
  | some marker => rw [Option.toList_some, List.singleton_append]

/-- What a stream has yet to give. -/
def ahead (m : Matching) (s : MarkerStream) : List (Except Fault Marker) :=
  (markersOf m s.trail s.log.lines).map .ok ++ s.log.fault.toList.map .error

/-- **One call takes the first of what is ahead.** The induction is on the lines
that are read on the way to a diagnostic. -/
theorem readLines_ahead (m : Matching) (fault : Option Fault) (lines : List (List UInt8))
    (trail : Trail) (statistics : Statistics) :
    (readLines m fault lines trail statistics).1 =
      (ahead m ⟨⟨lines, fault⟩, trail, statistics⟩).head? ∧
      ahead m (readLines m fault lines trail statistics).2 =
        (ahead m ⟨⟨lines, fault⟩, trail, statistics⟩).tail := by
  induction lines generalizing trail statistics with
  | nil => cases fault <;> exact ⟨rfl, rfl⟩
  | cons line lines ih =>
    rw [readLines]
    simp only [ahead, markersOf_cons] at ih ⊢
    cases hline : lineOf line with
    | diagnostic diagnostic => simp [markerOf?, trailBehind, hline]
    | directory change =>
      simpa [markerOf?, trailBehind, hline] using ih (trail.follow change)
        statistics.countLine.countDirectoryChange
    | other => simpa [markerOf?, trailBehind, hline] using ih trail statistics.countLine

theorem next_ahead (m : Matching) (s : MarkerStream) :
    (s.next m).1 = (ahead m s).head? ∧ ahead m (s.next m).2 = (ahead m s).tail :=
  readLines_ahead m s.log.fault s.log.lines s.trail s.statistics

/-- What the first `n` calls of `next` give. -/
def calls (m : Matching) : ℕ → MarkerStream → List (Option (Except Fault Marker))
  | 0, _ => []
  | n + 1, s => (s.next m).1 :: calls m n (s.next m).2

/-- What a log comes to that is cut into the lines and the rest: the markers of
all lines where it can be read to its end, and otherwise those of the complete
lines and one fault. -/
def outcome (m : Matching) (directory : Route) (lines : List (List UInt8)) (rest : List UInt8) :
    Option Fault → List (Except Fault Marker)
  | none => (markersOf m (.start directory) (lines ++ if rest = [] then [] else [rest])).map .ok
  | some fault => (markersOf m (.start directory) lines).map .ok ++ [.error fault]

/-- Markers and a fault behind them are told apart in what is ahead. -/
theorem ahead_injective {markers markers' : List Marker} {fault fault' : Option Fault}
    (h : markers.map (.ok : Marker → Except Fault Marker) ++ fault.toList.map .error =
      markers'.map .ok ++ fault'.toList.map .error) : markers = markers' ∧ fault = fault' := by
  induction markers generalizing markers' with
  | nil => cases markers' <;> cases fault <;> cases fault' <;> simp_all
  | cons marker markers ih =>
    cases markers' with
    | nil => cases fault' <;> simp_all
    | cons marker' markers' =>
      simp only [List.map_cons, List.cons_append, List.cons.injEq, Except.ok.injEq] at h
      obtain ⟨rfl, h⟩ := h
      obtain ⟨rfl, rfl⟩ := ih h
      exact ⟨rfl, rfl⟩

theorem take_ahead (m : Matching) (s : MarkerStream) :
    (s.take m).1 = (ahead m s).head? ∧ ahead m (s.take m).2 = (ahead m s).tail := by
  have h := next_ahead m s
  unfold take
  split
  · next marker behind heq =>
    rw [heq] at h
    exact h
  · next item behind _ heq =>
    rw [heq] at h
    exact h

/-- **Draining takes the markers that there is room for**, and meets the fault
behind them only if all of them are taken. -/
theorem drain_eq (m : Matching) (room : Option ℕ) (s : MarkerStream) :
    (s.drain m room).markers = room.elim id List.take (markersOf m s.trail s.log.lines) ∧
      ((∀ k, room = some k → (markersOf m s.trail s.log.lines).length ≤ k) →
        (s.drain m room).fault = s.log.fault) := by
  induction h : s.remaining using Nat.strongRecOn generalizing s room with
  | _ bound ih =>
    have hahead := take_ahead m s
    rw [drain]
    split
    · next behind heq =>
      rw [heq] at hahead
      obtain ⟨hmarkers, hfault⟩ : markersOf m s.trail s.log.lines = [] ∧ s.log.fault = none := by
        simpa [ahead] using List.head?_eq_none_iff.1 hahead.1.symm
      rw [hmarkers, hfault]
      cases room <;> simp
    · next fault behind heq =>
      rw [heq] at hahead
      cases hmarkers : markersOf m s.trail s.log.lines with
      | cons marker markers => simp [ahead, hmarkers] at hahead
      | nil =>
        have hfault : s.log.fault = some fault := by
          cases hlog : s.log.fault <;> simp_all [ahead]
        rw [hfault]
        cases room <;> simp
    · next marker behind heq =>
      rw [heq] at hahead
      obtain ⟨hhead, htail⟩ := hahead
      cases hmarkers : markersOf m s.trail s.log.lines with
      | nil => cases hlog : s.log.fault <;> simp [ahead, hmarkers, hlog] at hhead
      | cons first markers =>
        obtain rfl : marker = first := by simpa [ahead, hmarkers] using hhead
        obtain ⟨hbehind, hfault⟩ : markersOf m behind.trail behind.log.lines = markers ∧
            behind.log.fault = s.log.fault :=
          ahead_injective (by simpa [ahead, hmarkers] using htail)
        -- a marker that there is no room for is lost, and what is behind it is not asked for
        by_cases hroom : room = some 0
        · simp [hroom]
        · rw [if_neg hroom]
          obtain ⟨hrest, hend⟩ := ih _ (h ▸ remaining_lt_of_take heq) (room.map (· - 1)) behind rfl
          rw [hbehind] at hrest hend
          rw [hfault] at hend
          cases room with
          | none => exact ⟨congrArg (marker :: ·) hrest, fun _ => hend (by simp)⟩
          | some k =>
            obtain ⟨k, rfl⟩ := Nat.exists_eq_succ_of_ne_zero fun hk : k = 0 =>
              hroom (congrArg some hk)
            refine ⟨congrArg (marker :: ·) hrest, fun hlength => hend ?_⟩
            simpa using hlength

end MarkerStream

end BuildMarkers

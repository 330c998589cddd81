import BuildMarkers.Log.BuildLog
import BuildMarkers.Proofs.Path.Plain
/-!
# Cutting a build log into lines

Bytes are cut into lines if each line ends with the only line feed in it and no
line feed is left behind them. There is one way to cut, and it is the one in
which a build log is read (`cut_iff`), so no byte of a log is lost, doubled or
moved.
-/

namespace BuildMarkers

namespace BuildLog

variable {bytes rest : List UInt8} {lines : List (List UInt8)}

/-- The bytes are the lines, each ended by its only line feed, and a rest without
one. -/
structure Cut (bytes : List UInt8) (lines : List (List UInt8)) (rest : List UInt8) : Prop where
  flatten_eq : lines.flatten ++ rest = bytes
  of_mem : ∀ line ∈ lines, ∃ piece, lineFeed ∉ piece ∧ line = piece ++ [lineFeed]
  notMem_rest : lineFeed ∉ rest

/-- The pieces between the line feeds are the lines without theirs, and the
rest. -/
theorem Cut.splitOn_eq (h : Cut bytes lines rest) :
    bytes.splitOn lineFeed = lines.map List.dropLast ++ [rest] := by
  induction lines generalizing bytes with
  | nil =>
    rw [← h.flatten_eq]
    exact List.splitOn_eq_singleton h.notMem_rest
  | cons line lines ih =>
    obtain ⟨piece, hpiece, rfl⟩ := h.of_mem line List.mem_cons_self
    have hrest : Cut (lines.flatten ++ rest) lines rest :=
      ⟨rfl, fun l hl => h.of_mem l (List.mem_cons_of_mem _ hl), h.notMem_rest⟩
    rw [← h.flatten_eq, List.flatten_cons, List.append_assoc, List.append_assoc,
      List.singleton_append, List.splitOn_append_cons_self_of_not_mem hpiece, ih hrest]
    simp

theorem flatten_map_append_singleton {separator : UInt8} {pieces : List (List UInt8)}
    (h : pieces ≠ []) :
    (pieces.dropLast.map (· ++ [separator])).flatten ++ pieces.getLastD [] =
      [separator].intercalate pieces := by
  induction pieces with
  | nil => exact absurd rfl h
  | cons piece pieces ih =>
    cases pieces with
    | nil => simp
    | cons next pieces =>
      rw [List.dropLast_cons_of_ne_nil (by simp), List.map_cons, List.flatten_cons,
        List.getLastD_cons, List.append_assoc]
      have := ih (by simp)
      rw [List.getLastD_cons] at this
      rw [List.getLastD_cons, this, List.intercalate_cons_cons]

theorem cut_completeLines (bytes : List UInt8) :
    Cut bytes (completeLines bytes) (lastPiece bytes) := by
  have hne := List.splitOn_ne_nil lineFeed bytes
  refine ⟨?_, fun line hline => ?_, ?_⟩
  · rw [completeLines, lastPiece, flatten_map_append_singleton hne, List.intercalate_splitOn]
  · obtain ⟨piece, hpiece, rfl⟩ := List.mem_map.1 hline
    exact ⟨piece, notMem_of_mem_splitOn ((List.dropLast_sublist _).subset hpiece), rfl⟩
  · rw [lastPiece, List.getLastD_eq_getLast?, List.getLast?_eq_some_getLast hne, Option.getD_some]
    exact notMem_of_mem_splitOn (List.getLast_mem hne)

/-- **There is one way to cut bytes into lines**, and it is how they are read. -/
theorem cut_iff : Cut bytes lines rest ↔ lines = completeLines bytes ∧ rest = lastPiece bytes := by
  constructor
  · intro h
    rw [completeLines, lastPiece, h.splitOn_eq, List.dropLast_concat, List.map_map]
    constructor
    · conv_lhs => rw [← List.map_id lines]
      refine List.map_congr_left fun line hline => ?_
      obtain ⟨piece, -, rfl⟩ := h.of_mem line hline
      simp
    · simp
  · rintro ⟨rfl, rfl⟩
    exact cut_completeLines bytes

/-! ## The log of a file -/

theorem ofFile_of_none {data : FileData} (h : data.readFault = none) :
    ofFile data = ⟨linesOf data.content, none⟩ := by
  rw [ofFile, h]

theorem ofFile_of_some {data : FileData} {fault : Fault} (h : data.readFault = some fault) :
    ofFile data = ⟨completeLines data.content, some fault⟩ := by
  rw [ofFile, h]

/-- The fault of a log is that of the file. -/
theorem fault_ofFile (data : FileData) : (ofFile data).fault = data.readFault := by
  cases h : data.readFault with
  | none => rw [ofFile_of_none h]
  | some fault => rw [ofFile_of_some h]

end BuildLog

end BuildMarkers

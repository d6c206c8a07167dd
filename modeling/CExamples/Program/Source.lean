import CExamples.Program.Passes
import CExamples.Word.Lines

/-!
# Streams that end or fail

A stream that is read has bytes to come, and behind them its end or an error that lasts.
The end is remembered, an error does not count as the end.  `fgetc` and `fread` hand out
all bytes before either; `fgets` drops what it has read of a line when an error comes.
-/

namespace CExamples.Program

open CExamples.Word

/-- A `FILE` that is read: the bytes to come, whether an error comes behind them, and
whether the end was met. -/
structure Source where
  bytes : List UInt8
  fails : Bool
  eof : Bool
  deriving DecidableEq, Repr

/-- A line ends with its newline or where the room for it ends. -/
def Complete (room : Nat) (line : List UInt8) : Prop :=
  line.length = room ∨ line.getLast? = some 10

instance (room : Nat) (line : List UInt8) : Decidable (Complete room line) :=
  inferInstanceAs (Decidable (_ ∨ _))

namespace Source

/-- A call has met the end, or the error. -/
def close (source : Source) : Source where
  bytes := []
  fails := source.fails
  eof := source.eof || !source.fails

/-- `fgetc(file)`: the byte, unless it returns `EOF`. -/
def fgetc (source : Source) : Option UInt8 × Source :=
  match source.bytes with
  | byte :: rest => (some byte, { source with bytes := rest })
  | [] => (none, source.close)

/-- `fread(buffer, 1, count, file)`: what it stores, unless it returns 0. -/
def fread (count : Nat) (source : Source) : Option (List UInt8) × Source :=
  let got := source.bytes.take count
  let rest :=
    if got.length < count then source.close
    else { source with bytes := source.bytes.drop count }
  if got = [] then (none, rest) else (some got, rest)

/-- `fgets(line, size, file)`: the bytes before the terminator that it stores, unless it
returns `NULL`. -/
def fgets (size : Nat) (source : Source) : Option (List UInt8) × Source :=
  let taken := takeLine (size - 1) source.bytes
  if Complete (size - 1) taken.1 then (some taken.1, { source with bytes := taken.2 })
  else if source.fails ∨ taken.1 = [] then (none, source.close)
  else (some taken.1, source.close)

/-- The lines that `fgets` hands out. -/
def gets (size : Nat) (source : Source) : List (List UInt8) :=
  if source.fails then (lines size source.bytes).filter (Complete (size - 1))
  else lines size source.bytes

@[simp]
theorem fails_close (source : Source) : source.close.fails = source.fails :=
  rfl

/-! ## Bytes -/

theorem feeds_fgetc : Feeds fgetc bytes (fun _ => True) (fun _ => True) where
  ended := by
    intro source rest _ ended
    rw [fgetc] at ended
    split at ended
    · cases ended
    · rename_i empty
      exact ⟨empty, trivial⟩
  taken := by
    intro source byte rest _ taken
    rw [fgetc] at taken
    split at taken
    · rename_i first more bytesEq
      cases taken
      exact ⟨bytesEq, trivial⟩
    · cases taken

/-! ## Blocks -/

theorem length_drop_lt {count : Nat} (positive : 0 < count) {bytes : List UInt8}
    (nonempty : bytes ≠ []) : (bytes.drop count).length < bytes.length := by
  have some := List.length_pos_iff.mpr nonempty
  rw [List.length_drop]
  omega

/-- The bytes in blocks of `count`, of which the last one may be shorter. -/
def blocks (count : Nat) (bytes : List UInt8) : List (List UInt8) :=
  if 0 < count ∧ bytes ≠ [] then bytes.take count :: blocks count (bytes.drop count)
  else []
termination_by bytes.length
decreasing_by
  rename_i readable
  exact length_drop_lt readable.1 readable.2

@[simp]
theorem blocks_nil (count : Nat) : blocks count [] = [] := by
  rw [blocks, if_neg fun readable => readable.2 rfl]

theorem blocks_of_ne_nil {count : Nat} (positive : 0 < count) {bytes : List UInt8}
    (nonempty : bytes ≠ []) :
    blocks count bytes = bytes.take count :: blocks count (bytes.drop count) := by
  rw [blocks, if_pos ⟨positive, nonempty⟩]

theorem flatten_blocks {count : Nat} (positive : 0 < count) (bytes : List UInt8) :
    (blocks count bytes).flatten = bytes := by
  induction bytes using blocks.induct count with
  | case1 bytes readable ih =>
      rw [blocks_of_ne_nil positive readable.2, List.flatten_cons, ih, List.take_append_drop]
  | case2 bytes ended =>
      have empty : bytes = [] := by
        by_contra nonempty
        exact ended ⟨positive, nonempty⟩
      rw [empty, blocks_nil, List.flatten_nil]

theorem feeds_fread {count : Nat} (positive : 0 < count) :
    Feeds (fread count) (fun source => blocks count source.bytes) (fun _ => True)
      (fun _ => True) where
  ended := by
    intro source rest _ ended
    simp only [fread] at ended
    split at ended
    · rename_i nothing
      have empty : source.bytes = [] := by
        rcases List.take_eq_nil_iff.mp nothing with zero | empty
        · omega
        · exact empty
      refine ⟨?_, trivial⟩
      simp only [empty, blocks_nil]
    · cases ended
  taken := by
    intro source block rest _ taken
    simp only [fread] at taken
    split at taken
    · cases taken
    · rename_i some
      have nonempty : source.bytes ≠ [] := by
        intro empty
        exact some (by rw [empty, List.take_nil])
      rcases Prod.mk.inj taken with ⟨blockEq, restEq⟩
      refine ⟨?_, trivial⟩
      rw [← Option.some.inj blockEq, blocks_of_ne_nil positive nonempty]
      congr 2
      rw [← restEq]
      split
      · rename_i short
        rw [List.length_take] at short
        exact List.drop_eq_nil_of_le (by omega)
      · rfl

/-! ## Lines -/

/-- A line that is not complete is the last one. -/
theorem takeLine_snd_eq_nil {room : Nat} {bytes : List UInt8}
    (incomplete : ¬Complete room (takeLine room bytes).1) : (takeLine room bytes).2 = [] := by
  rcases takeLine_cases room bytes with ⟨body, _, _, whole | ⟨part, full | empty⟩⟩
  · exact absurd (Or.inr (by rw [whole, List.getLast?_concat])) incomplete
  · exact absurd (Or.inl (by rw [part, full])) incomplete
  · exact empty

theorem lines_of_ne_nil {size : Nat} (large : 1 < size) {bytes : List UInt8}
    (nonempty : bytes ≠ []) :
    lines size bytes =
      (takeLine (size - 1) bytes).1 :: lines size (takeLine (size - 1) bytes).2 := by
  rw [lines, dif_pos ⟨large, nonempty⟩]

@[simp]
theorem lines_nil (size : Nat) : lines size [] = [] := by
  rw [lines, dif_neg fun readable => readable.2 rfl]

theorem flatten_lines {size : Nat} (large : 1 < size) (bytes : List UInt8) :
    (lines size bytes).flatten = bytes := by
  induction bytes using lines.induct size with
  | case1 bytes readable ih =>
      rw [lines_of_ne_nil large readable.2, List.flatten_cons, ih, takeLine_append]
  | case2 bytes ended =>
      have empty : bytes = [] := by
        by_contra nonempty
        exact ended ⟨large, nonempty⟩
      rw [empty, lines_nil, List.flatten_nil]

@[simp]
theorem gets_of_nil {size : Nat} {source : Source} (empty : source.bytes = []) :
    source.gets size = [] := by
  rw [gets, empty, lines_nil, List.filter_nil, ite_self]

/-- A complete line is handed out. -/
theorem gets_of_complete {size : Nat} (large : 1 < size) {source : Source}
    (nonempty : source.bytes ≠ []) (complete : Complete (size - 1) (takeLine (size - 1) source.bytes).1) :
    source.gets size = (takeLine (size - 1) source.bytes).1 ::
      gets size { source with bytes := (takeLine (size - 1) source.bytes).2 } := by
  rw [gets, gets, lines_of_ne_nil large nonempty, List.filter_cons_of_pos (by simpa using complete)]
  split <;> rfl

theorem bytes_ne_nil_of_complete {size : Nat} (large : 1 < size) {source : Source}
    (complete : Complete (size - 1) (takeLine (size - 1) source.bytes).1) : source.bytes ≠ [] := by
  obtain ⟨room, roomEq⟩ := Nat.exists_eq_add_one_of_ne_zero (n := size - 1) (by omega)
  intro empty
  rw [empty, roomEq, takeLine] at complete
  rcases complete with full | last
  · cases full
  · cases last

theorem feeds_fgets {size : Nat} (large : 1 < size) :
    Feeds (fgets size) (gets size) (fun source => source.eof = true → source.bytes = [])
      (fun source => source.fails = false → source.eof = true) where
  ended := by
    intro source rest _ ended
    simp only [fgets] at ended
    split at ended
    · cases ended
    · rename_i incomplete
      have last := takeLine_snd_eq_nil incomplete
      split at ended
      · rename_i dropped
        cases ended
        refine ⟨?_, fun fine => by rw [fails_close] at fine; simp [close, fine]⟩
        by_cases empty : source.bytes = []
        · exact gets_of_nil empty
        · rcases dropped with fails | nothing
          · rw [gets, if_pos fails, lines_of_ne_nil large empty, last, lines_nil,
              List.filter_cons_of_neg (by simpa using incomplete), List.filter_nil]
          · exact absurd nothing (takeLine_ne_nil (by omega) empty)
      · cases ended
  taken := by
    intro source line rest kept taken
    simp only [fgets] at taken
    split at taken
    · rename_i complete
      cases taken
      have nonempty := bytes_ne_nil_of_complete large complete
      exact ⟨gets_of_complete large nonempty complete, fun eof => absurd (kept eof) nonempty⟩
    · rename_i incomplete
      split at taken
      · cases taken
      · rename_i handed
        cases taken
        rw [not_or] at handed
        have nonempty : source.bytes ≠ [] := by
          intro empty
          apply handed.2
          have split := takeLine_append (size - 1) source.bytes
          rw [empty, List.append_eq_nil_iff] at split
          rw [empty]
          exact split.1
        refine ⟨?_, fun _ => rfl⟩
        rw [gets, if_neg handed.1, lines_of_ne_nil large nonempty, takeLine_snd_eq_nil incomplete,
          lines_nil, gets_of_nil rfl]

/-- What comes behind the bytes does not change. -/
theorem fails_fgets (size : Nat) (source : Source) :
    (source.fgets size).2.fails = source.fails := by
  simp only [fgets]
  split
  · rfl
  · split <;> rfl

/-- A failing stream never tells its end. -/
theorem eof_fgets_of_fails {size : Nat} {source : Source} (fails : source.fails = true) :
    (source.fgets size).2.eof = source.eof := by
  simp only [fgets]
  split
  · rfl
  · rw [if_pos (Or.inl fails)]
    simp [close, fails]

/-- A stream that does not fail tells its end. -/
theorem feeds_fgets_of_ends {size : Nat} (large : 1 < size) :
    Feeds (fgets size) (gets size)
      (fun source => source.fails = false ∧ (source.eof = true → source.bytes = []))
      (fun source => source.eof = true) where
  ended := by
    rintro source rest ⟨fine, kept⟩ ended
    rcases (feeds_fgets large).ended source rest kept ended with ⟨nothing, told⟩
    have same := fails_fgets size source
    rw [ended] at same
    exact ⟨nothing, told (same.trans fine)⟩
  taken := by
    rintro source line rest ⟨fine, kept⟩ taken
    rcases (feeds_fgets large).taken source line rest kept taken with ⟨items, after⟩
    have same := fails_fgets size source
    rw [taken] at same
    exact ⟨items, same.trans fine, after⟩

end Source

/-! ## Lines as strings -/

theorem length_cString_le (bytes : List UInt8) : (cString bytes).length ≤ bytes.length :=
  (List.takeWhile_sublist _).length_le

theorem cString_eq_self_iff {bytes : List UInt8} : cString bytes = bytes ↔ 0 ∉ bytes := by
  rw [cString, List.takeWhile_eq_self_iff]
  simp only [ne_eq, decide_not, Bool.not_eq_eq_eq_not, Bool.not_true, decide_eq_false_iff_not]
  exact ⟨fun nonzero member => nonzero 0 member rfl, fun noZero byte member zero =>
    noZero (zero ▸ member)⟩

theorem length_flatten_cString_le (kept : List UInt8 → Bool) (pieces : List (List UInt8)) :
    ((pieces.filter kept).map cString).flatten.length ≤ pieces.flatten.length := by
  induction pieces with
  | nil => exact Nat.le_refl _
  | cons piece pieces ih =>
      have shorter := length_cString_le piece
      rw [List.flatten_cons, List.length_append]
      cases keeps : kept piece with
      | true =>
          rw [List.filter_cons_of_pos keeps, List.map_cons, List.flatten_cons, List.length_append]
          omega
      | false =>
          rw [List.filter_cons_of_neg (by simp [keeps])]
          omega

/-- The strings of the pieces that are kept hold all bytes only if no byte is zero and all
pieces are kept. -/
theorem flatten_cString_eq_iff (kept : List UInt8 → Bool) {pieces : List (List UInt8)}
    (nonempty : ∀ piece ∈ pieces, piece ≠ []) :
    ((pieces.filter kept).map cString).flatten = pieces.flatten ↔
      0 ∉ pieces.flatten ∧ ∀ piece ∈ pieces, kept piece = true := by
  induction pieces with
  | nil => simp
  | cons piece pieces ih =>
      have first := List.length_pos_iff.mpr (nonempty piece List.mem_cons_self)
      have rest := ih fun other member => nonempty other (List.mem_cons_of_mem piece member)
      have shorter := length_flatten_cString_le kept pieces
      rw [List.flatten_cons, List.mem_append, not_or, List.forall_mem_cons]
      cases keeps : kept piece with
      | true =>
          rw [List.filter_cons_of_pos keeps, List.map_cons, List.flatten_cons]
          have split : cString piece ++ ((pieces.filter kept).map cString).flatten =
              piece ++ pieces.flatten ↔ cString piece = piece ∧
                ((pieces.filter kept).map cString).flatten = pieces.flatten := by
            constructor
            · intro same
              have lengths := congrArg List.length same
              have part := length_cString_le piece
              rw [List.length_append, List.length_append] at lengths
              exact List.append_inj same (by omega)
            · rintro ⟨same, others⟩
              rw [same, others]
          rw [split, rest, cString_eq_self_iff]
          simp [and_assoc]
      | false =>
          rw [List.filter_cons_of_neg (by simp [keeps])]
          apply iff_of_false
          · intro same
            have lengths := congrArg List.length same
            rw [List.length_append] at lengths
            omega
          · rintro ⟨-, impossible, -⟩
            cases impossible

theorem ne_nil_of_mem_lines {size : Nat} {bytes line : List UInt8}
    (member : line ∈ lines size bytes) : line ≠ [] := by
  induction bytes using lines.induct size with
  | case1 bytes readable ih =>
      rw [lines, dif_pos readable] at member
      rcases List.mem_cons.mp member with rfl | later
      · exact takeLine_ne_nil (by omega) readable.2
      · exact ih later
  | case2 bytes ended =>
      rw [lines, dif_neg ended] at member
      cases member

/-- When the strings of the lines are the bytes of the stream. -/
theorem Source.flatten_gets_eq_iff {size : Nat} (large : 1 < size) (source : Source) :
    ((source.gets size).map cString).flatten = source.bytes ↔
      0 ∉ source.bytes ∧
        (source.fails = true → ∀ line ∈ lines size source.bytes, Complete (size - 1) line) := by
  have nonempty : ∀ line ∈ lines size source.bytes, line ≠ [] := fun _ => ne_nil_of_mem_lines
  have exactly (kept : List UInt8 → Bool) := flatten_cString_eq_iff kept nonempty
  simp only [flatten_lines large] at exactly
  cases fails : source.fails with
  | true =>
      rw [gets, if_pos fails, exactly]
      simp
  | false =>
      have all := exactly fun _ => true
      rw [List.filter_true] at all
      rw [gets, if_neg (by simp [fails]), all]
      simp

end CExamples.Program

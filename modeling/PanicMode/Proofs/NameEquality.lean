import PanicMode.Proofs.Departures
import PanicMode.Proofs.RawLookup

namespace PanicMode

/-- A scan from index `i` on that comes to its end with the answer. Every byte that it looks at is
there, and it goes on past bytes that agree. -/
inductive ByteScan (a b : ByteArray) : Nat → Bool → Prop where
  | ended : ByteScan a b a.size true
  | differ {i : Nat} (ha : i < a.size) (hb : i < b.size) (differ : a[i] ≠ b[i]) :
      ByteScan a b i false
  | agree {i : Nat} {answer : Bool} (ha : i < a.size) (hb : i < b.size) (same : a[i] = b[i])
      (rest : ByteScan a b (i + 1) answer) : ByteScan a b i answer

/-- A comparison that comes to its end with the answer. Only arrays of one size are scanned. -/
inductive ByteComparison (a b : ByteArray) : Bool → Prop where
  | sizes (differ : a.size ≠ b.size) : ByteComparison a b false
  | scanned {answer : Bool} (size : a.size = b.size) (scan : ByteScan a b 0 answer) :
      ByteComparison a b answer

section

variable {a b : ByteArray} {i : Nat} {answer : Bool}

theorem byteScan_end_iff : ByteScan a b a.size answer ↔ answer = true := by
  refine ⟨fun scan => ?_, fun h => h ▸ .ended⟩
  cases scan with
  | ended => rfl
  | differ ha => omega
  | agree ha => omega

theorem byteScan_iff_of_differ (ha : i < a.size) (hb : i < b.size) (differ : a[i] ≠ b[i]) :
    ByteScan a b i answer ↔ answer = false := by
  refine ⟨fun scan => ?_, fun h => h ▸ .differ ha hb differ⟩
  cases scan with
  | ended => omega
  | differ => rfl
  | agree _ _ same => exact absurd same differ

theorem byteScan_iff_of_agree (ha : i < a.size) (hb : i < b.size) (same : a[i] = b[i]) :
    ByteScan a b i answer ↔ ByteScan a b (i + 1) answer := by
  refine ⟨fun scan => ?_, fun rest => .agree ha hb same rest⟩
  cases scan with
  | ended => omega
  | differ _ _ differ => exact absurd same differ
  | agree _ _ _ rest => exact rest

theorem not_byteScan_of_missing (ha : i < a.size) (hb : ¬i < b.size) : ¬ByteScan a b i answer := by
  intro scan
  cases scan with
  | ended => omega
  | differ _ there => exact hb there
  | agree _ there => exact hb there

/-- The recursion on the number of bytes left answers as the scan does. It misses a byte where no
scan comes to its end. -/
theorem bytesAgree?_eq_some_iff {n : Nat} (h : i + n = a.size) :
    bytesAgree? a b i n = some answer ↔ ByteScan a b i answer := by
  induction n generalizing i with
  | zero =>
    have last : i = a.size := by omega
    subst last
    rw [byteScan_end_iff, bytesAgree?, Option.some.injEq, eq_comm]
  | succ n ih =>
    have ha : i < a.size := by omega
    -- the sizes may still differ here, so the byte of the second array may be missing
    by_cases hb : i < b.size
    · simp only [bytesAgree?, getElem?_pos a i ha, getElem?_pos b i hb, Option.bind_eq_bind,
        Option.bind_some]
      split
      next same => rw [ih (by omega), byteScan_iff_of_agree ha hb same]
      next differ => rw [byteScan_iff_of_differ ha hb differ, Option.some.injEq, eq_comm]
    · simp only [bytesAgree?, getElem?_pos a i ha, getElem?_neg b i hb, Option.bind_eq_bind,
        Option.bind_some, Option.bind_none, reduceCtorEq, not_byteScan_of_missing ha hb]

theorem byteScan_iff_of_bytesAgree? {found : Bool} (h : bytesAgree? a b 0 a.size = some found) :
    ByteScan a b 0 answer ↔ answer = found := by
  rw [← bytesAgree?_eq_some_iff (Nat.zero_add _), h, Option.some.injEq, eq_comm]

end

section

variable {a b : String}

theorem sameBytes_of_size_ne (h : a.toUTF8.size ≠ b.toUTF8.size) : sameBytes a b = false := by
  rw [sameBytes, beq_false_of_ne h, Bool.false_and]

/-- Every comparison of two texts comes to its end, and with one answer. -/
theorem byteComparison_iff {answer : Bool} :
    ByteComparison a.toUTF8 b.toUTF8 answer ↔ answer = sameBytes a b := by
  by_cases size : a.toUTF8.size = b.toUTF8.size
  · obtain ⟨found, read, decided⟩ := bytesAgree?_whole size
    have result : sameBytes a b = found := by
      rw [Bool.eq_iff_iff, sameBytes_iff_toUTF8, decided]
    rw [result, ← byteScan_iff_of_bytesAgree? read]
    refine ⟨fun comparison => ?_, fun scan => .scanned size scan⟩
    cases comparison with
    | sizes differ => exact absurd size differ
    | scanned _ scan => exact scan
  · rw [sameBytes_of_size_ne size]
    refine ⟨fun comparison => ?_, fun h => h ▸ .sizes size⟩
    cases comparison with
    | sizes => rfl
    | scanned same => exact absurd same size

end

theorem sameBytes_eq_beq (a b : String) : sameBytes a b = (a == b) := by
  rw [Bool.eq_iff_iff, beq_iff_eq, sameBytes_iff]

/-- The names remembered are looked up as a search through the rows above would do. -/
theorem contains_namesSeen (above : List Row) (name : String) :
    (namesSeen above).contains name =
      (!name.isEmpty && above.any (fun q => sameBytes q.name name)) := by
  rw [Bool.eq_iff_iff, remembers_namesSeen above name]
  simp only [Bool.and_eq_true, Bool.not_eq_true', ← Bool.not_eq_true, String.isEmpty_iff,
    List.any_eq_true, sameBytes_iff, ne_eq]

theorem named?_eq_find?_sameBytes (t : Table) (name : String) :
    t.named? name = (t.find? (fun r => sameBytes r.name name)).map Row.situation := by
  simp only [Table.named?, sameBytes_eq_beq]

/-- The loop over the bytes of two names answers where a scan of them comes to its end. With the
sizes compared first it always does, no byte is looked at beyond the end of either name, and the
answer says whether they are the same text. The set of names seen and the search for a name tell
names apart in the same way. -/
theorem name_equality_decided (a b : String) :
    (∀ answer, bytesAgree? a.toUTF8 b.toUTF8 0 a.toUTF8.size = some answer ↔
      ByteScan a.toUTF8 b.toUTF8 0 answer) ∧
    (∀ answer, ByteComparison a.toUTF8 b.toUTF8 answer ↔ answer = sameBytes a b) ∧
    (sameBytes a b = true ↔ a = b) ∧
    (∀ seen : SeenNames, (seen.insert a).contains b = (sameBytes a b || seen.contains b)) ∧
    (∀ above : List Row, (namesSeen above).contains b =
      (!b.isEmpty && above.any (fun q => sameBytes q.name b))) ∧
    (∀ t : Table, t.named? b = (t.find? (fun r => sameBytes r.name b)).map Row.situation) ∧
    ∀ d, Situation.named? b = some d ↔ sameBytes d.name b = true := by
  refine ⟨fun _ => bytesAgree?_eq_some_iff (Nat.zero_add _), fun _ => byteComparison_iff,
    sameBytes_iff, fun seen => ?_, fun above => contains_namesSeen above b,
    fun t => named?_eq_find?_sameBytes t b, fun d => ?_⟩
  · rw [Std.HashSet.contains_insert, sameBytes_eq_beq]
  · rw [Situation.named?_eq_some_iff, sameBytes_iff, eq_comm]

end PanicMode

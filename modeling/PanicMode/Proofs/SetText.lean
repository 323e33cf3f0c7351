import PanicMode.Proofs.SortedMembers
import PanicMode.Proofs.Spellings
import PanicMode.Report

namespace PanicMode

/-- Cuts a text at every comma that a blank follows, from left to right. -/
def cutPieces : List Char → List (List Char)
  | [] => [[]]
  | ',' :: ' ' :: cs => [] :: cutPieces cs
  | c :: cs => (cutPieces cs).modifyHead (c :: ·)

/-- The pieces between the first and the last character of a text, none if nothing is there. -/
def pieces (text : List Char) : List String :=
  match text.tail.dropLast with
  | [] => []
  | inner => (cutPieces inner).map String.ofList

section

variable {p : List Char} (h : ¬[',', ' '] <:+: p)

include h

/-- A piece may end in a comma, since the next one comes from the separator. -/
theorem cutPieces_append_separator (rest : List Char) :
    cutPieces (p ++ ',' :: ' ' :: rest) = p :: cutPieces rest := by
  induction p with
  | nil => rfl
  | cons c p ih =>
    have tail := ih fun hp => h (List.infix_cons hp)
    rw [List.cons_append, cutPieces, tail]
    · rfl
    · intro cs hc hcs
      cases p with
      | nil => cases hcs
      | cons b p =>
        subst hc
        cases (List.cons.inj hcs).1
        exact h ⟨[], p, rfl⟩

theorem cutPieces_of_not_infix : cutPieces p = [p] := by
  induction p with
  | nil => rfl
  | cons c p ih =>
    have tail := ih fun hp => h (List.infix_cons hp)
    rw [cutPieces, tail]
    · rfl
    · intro cs hc hcs
      subst hc hcs
      exact h ⟨[], cs, rfl⟩

end

theorem cutPieces_intercalate {ps : List (List Char)} (hne : ps ≠ [])
    (h : ∀ p ∈ ps, ¬[',', ' '] <:+: p) : cutPieces ([',', ' '].intercalate ps) = ps := by
  induction ps with
  | nil => exact absurd rfl hne
  | cons p ps ih =>
    obtain ⟨hp, hps⟩ := List.forall_mem_cons.mp h
    cases ps with
    | nil => rw [List.intercalate_singleton, cutPieces_of_not_infix hp]
    | cons q ps =>
      rw [List.intercalate_cons_cons, List.append_assoc, List.cons_append, List.cons_append,
        List.nil_append, cutPieces_append_separator hp, ih (by simp) hps]

/-- The spellings of the members with commas and blanks between them. -/
def TerminalSet.listing (s : TerminalSet) : List Char :=
  [',', ' '].intercalate (s.toList.map fun k => k.spelling.toList)

theorem toList_render (s : TerminalSet) :
    s.render.toList = '{' :: (s.listing ++ ['}']) := by
  simp [TerminalSet.render, TerminalSet.listing, Function.comp_def]

theorem listing_eq_nil_iff {s : TerminalSet} : s.listing = [] ↔ s.toList = [] := by
  unfold TerminalSet.listing
  cases s.toList with
  | nil => simp
  | cons k ks =>
    have written : k.spelling.toList ≠ [] := by simpa using k.spelling_ne_empty
    cases ks <;> simp [written]

/-- The text of a set can be taken apart into the spellings of its members. -/
theorem pieces_render (s : TerminalSet) :
    pieces s.render.toList = s.toList.map Terminal.spelling := by
  have inner : s.render.toList.tail.dropLast = s.listing := by
    rw [toList_render, List.tail_cons, List.dropLast_concat]
  unfold pieces
  rw [inner]
  split
  next empty => rw [listing_eq_nil_iff.mp empty, List.map_nil]
  next filled =>
    have hne : s.toList.map (fun k => k.spelling.toList) ≠ [] := by
      intro empty
      exact filled (listing_eq_nil_iff.mpr (List.map_eq_nil_iff.mp empty))
    have whole : ∀ p ∈ s.toList.map (fun k => k.spelling.toList), ¬[',', ' '] <:+: p := by
      simpa using fun k _ => k.comma_blank_not_infix_spelling
    rw [TerminalSet.listing, cutPieces_intercalate hne whole, List.map_map]
    simp [Function.comp_def]

theorem not_mem_intercalate {c : Char} {sep : List Char} {ps : List (List Char)} (hsep : c ∉ sep)
    (h : ∀ p ∈ ps, c ∉ p) : c ∉ sep.intercalate ps := by
  induction ps with
  | nil => simp
  | cons p ps ih =>
    obtain ⟨hp, hps⟩ := List.forall_mem_cons.mp h
    cases ps with
    | nil => rwa [List.intercalate_singleton]
    | cons q ps =>
      rw [List.intercalate_cons_cons]
      simp only [List.mem_append, not_or]
      exact ⟨⟨hp, hsep⟩, ih hps⟩

theorem newline_not_mem_render (s : TerminalSet) : '\n' ∉ s.render.toList := by
  have inner : '\n' ∉ s.listing := not_mem_intercalate (by decide) (by
    simpa using fun k _ => k.newline_not_mem_spelling)
  simp [toList_render, inner]

/-- The terminals that the pieces of a text write, if each of them writes one. -/
def readMembers? (text : String) : Option (List Terminal) :=
  (pieces text.toList).mapM Terminal.ofSpelling?

theorem mapM_ofSpelling?_spelling (ks : List Terminal) :
    (ks.map Terminal.spelling).mapM Terminal.ofSpelling? = some ks := by
  induction ks with
  | nil => rfl
  | cons k ks ih =>
    rw [List.map_cons, List.mapM_cons, Terminal.ofSpelling?_spelling, ih]
    rfl

theorem readMembers?_render (s : TerminalSet) : readMembers? s.render = some s.toList := by
  rw [readMembers?, pieces_render, mapM_ofSpelling?_spelling]

theorem TerminalSet.Built.render_inj {s t : TerminalSet} (hs : s.Built) (ht : t.Built) :
    s.render = t.render ↔ s = t := by
  refine ⟨fun same => ?_, fun same => congrArg TerminalSet.render same⟩
  have members : some s.toList = some t.toList := by
    rw [← readMembers?_render, ← readMembers?_render, same]
  rw [← hs.represents.ofList_toList, ← ht.represents.ofList_toList, Option.some.inj members]

/-- The text of a set is read back as its members in order, so no two sets have one text. -/
theorem set_text_read_back {s : TerminalSet} (built : s.Built) :
    (∃ inner, s.render.toList = '{' :: (inner ++ ['}'])) ∧
    readMembers? s.render = some s.memberList ∧
    ∀ t : TerminalSet, t.Built → t.render = s.render → t = s := by
  have members := built.represents.toList_eq_memberList
  exact ⟨⟨s.listing, toList_render s⟩, members ▸ readMembers?_render s,
    fun t ht same => (ht.render_inj built).mp same⟩

/-- The text has the code points of the braces, as the spellings have. -/
theorem clashing_spellings_read_back :
    (TerminalSet.ofList [.comma, .rightBrace, .endOfFile]).Built ∧
    (TerminalSet.ofList [.comma, .rightBrace, .endOfFile]).render =
      "\x7b,, \x7d, end of file\x7d" ∧
    readMembers? "\x7b,, \x7d, end of file\x7d" = some [.comma, .rightBrace, .endOfFile] ∧
    (TerminalSet.ofList [.endOfFile, .comma, .rightBrace, .comma]).Built ∧
    (TerminalSet.ofList [.endOfFile, .comma, .rightBrace, .comma]).render =
      "\x7b,, \x7d, end of file\x7d" ∧
    TerminalSet.ofList [.endOfFile, .comma, .rightBrace, .comma] =
      .ofList [.comma, .rightBrace, .endOfFile] := by
  have text : (TerminalSet.ofList [.comma, .rightBrace, .endOfFile]).render =
      "\x7b,, \x7d, end of file\x7d" := by decide +kernel
  have other : (TerminalSet.ofList [.endOfFile, .comma, .rightBrace, .comma]).render =
      "\x7b,, \x7d, end of file\x7d" := by decide +kernel
  obtain ⟨_, read, only⟩ :=
    set_text_read_back (TerminalSet.Built.ofList [.comma, .rightBrace, .endOfFile])
  rw [text] at read
  exact ⟨.ofList _, text, read.trans (by decide), .ofList _, other,
    only _ (.ofList _) (other.trans text.symm)⟩

end PanicMode

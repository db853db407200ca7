import EntityFlow.Proofs.Text.Lines
import EntityFlow.Proofs.Token.Quoting
import EntityFlow.Text.Documentation

/-!
# Documentation comments keep their text

A text is written as a documentation comment line by line: a line with the opening mark, each line
of the text behind a star, and a line with the end mark. The comment is one token, and reading the
text off that token gives the text back (`Token.lex_documentationComment`), whatever its lines start
with. Only the end mark and blanks at an end of the text or at the end of a line cannot be written
in this way (`Text.Documentable`).
-/

namespace EntityFlow

namespace Text

/-! ## Writing -/

/-- A line of a text as a line of a comment: behind a star and a space, or a star alone if the line
is empty. -/
def commentLine (line : List Char) : List Char :=
  if line = [] then [' ', '*'] else ' ' :: '*' :: ' ' :: line

/-- The lines of a text as lines of a comment, between a first and a last line. -/
def commentLines (first last text : List Char) : List (List Char) :=
  first :: ((splitAtChar '\n' text).map commentLine ++ [last])

/-- The documentation comment of a text: its lines between those of the two marks. -/
def documentationComment (text : String) : String :=
  String.ofList (join ['\n'] (commentLines ['/', '*', '*'] [' ', '*', '/'] text.toList))

/-- A text that a documentation comment can hold. -/
structure Documentable (text : List Char) : Prop where
  /-- The end mark would end the comment. -/
  endless : ¬ ['*', '/'] <:+: text
  /-- Blanks at the ends of the text are no part of it. -/
  trimmed : trim text = text
  /-- Blanks at the end of a line are no part of it. -/
  lines : ∀ line ∈ splitAtChar '\n' text, ∀ c ∈ line.getLast?, isBlank c = false

/-! ## The lines of a comment -/

section Lines

variable {text line first last front back piece : List Char}

theorem mem_commentLines (member : piece ∈ commentLines first last text) :
    piece = first ∨ (∃ line ∈ splitAtChar '\n' text, commentLine line = piece) ∨ piece = last := by
  rcases List.mem_cons.mp member with isFirst | member
  · exact .inl isFirst
  · rcases List.mem_append.mp member with written | isLast
    · exact .inr (.inl (List.mem_map.mp written))
    · exact .inr (.inr (List.mem_singleton.mp isLast))

/-- What stands in front of the first line and behind the last one stands around the comment. -/
theorem join_commentLines :
    join ['\n'] (commentLines (front ++ first) (last ++ back) text) =
      front ++ join ['\n'] (commentLines first last text) ++ back := by
  unfold commentLines
  rw [join_append_cons, ← List.cons_append, join_append_last, List.cons_append, List.append_assoc]

theorem not_infix_commentLine (endless : ¬ ['*', '/'] <:+: line) :
    ¬ ['*', '/'] <:+: commentLine line := by
  unfold commentLine
  split
  · decide
  · intro inside
    -- the mark holds no space, and in front of the space stands a star alone
    have cut : ['*', '/'] <:+: [' ', '*'] ∨ ['*', '/'] <:+: line :=
      (infix_append_cons_iff (by decide)).mp inside
    exact cut.elim (by decide) endless

theorem not_mem_commentLine (one : '\n' ∉ line) : '\n' ∉ commentLine line := by
  unfold commentLine
  split
  · decide
  · simpa using one

/-- An end mark in a comment stands in its first or last line, or in the text. -/
theorem not_infix_join_commentLines (endless : ¬ ['*', '/'] <:+: text)
    (inFirst : ¬ ['*', '/'] <:+: first) (inLast : ¬ ['*', '/'] <:+: last) :
    ¬ ['*', '/'] <:+: join ['\n'] (commentLines first last text) := by
  intro mark
  obtain ⟨piece, member, inside⟩ := (infix_join_iff (by decide) (List.cons_ne_nil _ _)).mp mark
  rcases mem_commentLines member with rfl | ⟨line, isLine, rfl⟩ | rfl
  · exact inFirst inside
  · refine not_infix_commentLine (fun within => endless ?_) inside
    rw [← join_splitAtChar '\n' text, infix_join_iff (by decide) (splitAtChar_ne_nil _ _)]
    exact ⟨line, isLine, within⟩
  · exact inLast inside

theorem splitAtChar_join_commentLines (oneFirst : '\n' ∉ first) (oneLast : '\n' ∉ last) :
    splitAtChar '\n' (join ['\n'] (commentLines first last text)) =
      commentLines first last text := by
  apply splitAtChar_join (List.cons_ne_nil _ _)
  intro piece member
  rcases mem_commentLines member with rfl | ⟨line, isLine, rfl⟩ | rfl
  · exact oneFirst
  · exact not_mem_commentLine (not_mem_of_mem_splitAtChar isLine)
  · exact oneLast

end Lines

/-! ## Reading -/

section Reading

variable {text line : List Char}

/-- A carriage return at the end of a line is a blank. -/
theorem trim_dropBack_return (line : List Char) : trim (dropBack ['\r'] line) = trim line := by
  unfold dropBack
  split
  · rename_i ends
    obtain ⟨front, rfl⟩ := List.isSuffixOf_iff_suffix.mp ends
    have blank : isBlank '\r' = true := by decide
    have trimmed : trim ([] ++ front ++ ['\r']) = trim front :=
      trim_between nofun (List.forall_mem_singleton.mpr blank)
    rw [List.nil_append] at trimmed
    rw [trimmed, List.length_append, Nat.add_sub_cancel, List.take_left]
  · rfl

theorem documentationLine_dropBack (line : List Char) :
    documentationLine (dropBack ['\r'] line) = documentationLine line := by
  rw [documentationLine, trim_dropBack_return]
  rfl

/-- The star of a line and the space behind it are taken away, and nothing else. -/
theorem documentationLine_commentLine (visible : ∀ c ∈ line.getLast?, isBlank c = false) :
    documentationLine (commentLine line) = line := by
  unfold commentLine
  split
  · rename_i empty
    rw [empty]
    decide
  · rename_i some
    have star : isBlank '*' = false := by decide
    have ends : ∀ c ∈ ('*' :: ' ' :: line).getLast?, isBlank c = false := by
      rwa [List.getLast?_cons_cons, List.getLast?_cons_of_ne_nil some]
    have trimmed : trim (' ' :: '*' :: ' ' :: line) = '*' :: ' ' :: line := by
      have blank : isBlank ' ' = true := by decide
      have inner : trim ([' '] ++ ('*' :: ' ' :: line) ++ []) = trim ('*' :: ' ' :: line) :=
        trim_between (List.forall_mem_singleton.mpr blank) nofun
      rw [List.append_nil] at inner
      rw [← List.singleton_append, inner]
      exact trim_eq_self (by simpa using star) ends
    rw [documentationLine, trimmed]
    rfl

/-- What stands between the marks, line by line: nothing on the lines of the marks, and the lines of
the text between them. -/
theorem map_documentationLine (visible : ∀ line ∈ splitAtChar '\n' text, ∀ c ∈ line.getLast?,
      isBlank c = false) :
    (lines (join ['\n'] (commentLines [] [' '] text))).map documentationLine =
      [] :: (splitAtChar '\n' text ++ [[]]) := by
  have unwritten : ((splitAtChar '\n' text).map commentLine).map documentationLine =
      splitAtChar '\n' text := by
    rw [List.map_map, List.map_congr_left (g := id), List.map_id]
    exact fun line isLine => documentationLine_commentLine (visible line isLine)
  have first : documentationLine [] = [] := by decide
  have last : documentationLine [' '] = [] := by decide
  have returns : documentationLine ∘ dropBack ['\r'] = documentationLine :=
    funext documentationLine_dropBack
  have pieces : splitAtChar '\n' (join ['\n'] (commentLines [] [' '] text)) =
      ([] :: (splitAtChar '\n' text).map commentLine) ++ [[' ']] :=
    splitAtChar_join_commentLines (by decide) (by decide)
  simp only [lines, pieces, List.dropLast_concat, List.getLast?_concat]
  rw [List.map_append, List.map_map, returns, List.map_cons, unwritten, first]
  simp [last]

/-- The marks of a comment, and what stands between them. -/
theorem toList_documentationComment (text : String) :
    (documentationComment text).toList = ['/', '*', '*'] ++
      join ['\n'] (commentLines [] [' '] text.toList) ++ ['*', '/'] := by
  rw [documentationComment, String.toList_ofList, ← join_commentLines]
  rfl

/-- The text that is read off a comment is the one that it was written for. -/
theorem documentation_documentationComment {text : String}
    (documentable : Documentable text.toList) :
    documentation (documentationComment text).toList = text.toList := by
  have whole : trim (documentationComment text).toList = (documentationComment text).toList := by
    have slash : isBlank '/' = false := by decide
    rw [toList_documentationComment]
    apply trim_eq_self
    · simpa using slash
    · rw [List.getLast?_append]
      simpa using slash
  have between : join ['\n'] ([] :: (splitAtChar '\n' text.toList ++ [[]])) =
      ['\n'] ++ text.toList ++ ['\n'] := by
    rw [join_cons_of_ne_nil (by simp), join_concat (splitAtChar_ne_nil _ _), join_splitAtChar]
    simp
  have newline : isBlank '\n' = true := by decide
  have blank : ∀ c ∈ ['\n'], isBlank c = true := List.forall_mem_singleton.mpr newline
  unfold documentation
  rw [whole, toList_documentationComment, List.append_assoc, dropFront_append, dropBack_append]
  show trim (join ['\n'] ((lines _).map documentationLine)) = text.toList
  rw [map_documentationLine documentable.lines, between, trim_between blank blank,
    documentable.trimmed]

end Reading

end Text

/-! ## Comments as tokens -/

namespace Token

/-- **A documentation comment is one token, and its text is the one that it was written for.** -/
theorem lex_documentationComment {text : String} (documentable : Text.Documentable text.toList) :
    lex (Text.documentationComment text) = .ok (single .javadoc (Text.documentationComment text)) ∧
      String.ofList (Text.documentation (Text.documentationComment text).toList) = text := by
  have found : Lexer.Matches .javadoc (Text.documentationComment text).toList [] := by
    -- the star of each mark counts as inside, so that no end mark is made with it
    have endless : ¬ ['*', '/'] <:+:
        Text.join ['\n'] (Text.commentLines (['*'] ++ []) ([' '] ++ ['*']) text.toList) :=
      Text.not_infix_join_commentLines documentable.endless (by decide) (by decide)
    rw [Text.join_commentLines] at endless
    rw [Text.toList_documentationComment, List.append_assoc]
    exact .javadoc rfl endless
  refine ⟨lex_single found (by decide), ?_⟩
  rw [Text.documentation_documentationComment documentable, String.ofList_toList]

/-- An opening mark, an empty line, indentation in front of a star, and a star at the front. -/
theorem lex_documentationComment_stars :
    Text.Documentable "a /* b\n\n   * c\n* d".toList ∧
      lex "/**\n * a /* b\n *\n *    * c\n * * d\n */" =
        .ok [⟨.javadoc, "/**\n * a /* b\n *\n *    * c\n * * d\n */", ⟨0, 37, 1, 1, 6, 4⟩⟩,
          ⟨.eof, "", ⟨37, 37, 6, 4, 6, 4⟩⟩] ∧
      String.ofList (Text.documentation
        "/**\n * a /* b\n *\n *    * c\n * * d\n */".toList) = "a /* b\n\n   * c\n* d" := by
  have documentable : Text.Documentable "a /* b\n\n   * c\n* d".toList :=
    { endless := by decide +kernel
      trimmed := by decide +kernel
      lines := by
        have pieces : Text.splitAtChar '\n' "a /* b\n\n   * c\n* d".toList =
            ["a /* b".toList, [], "   * c".toList, "* d".toList] := by decide +kernel
        have visible : Text.isBlank 'b' = false ∧ Text.isBlank 'c' = false ∧
            Text.isBlank 'd' = false := by decide
        rw [pieces]
        simpa using visible }
  have written : Text.documentationComment "a /* b\n\n   * c\n* d" =
      "/**\n * a /* b\n *\n *    * c\n * * d\n */" := by decide +kernel
  have spans : single .javadoc "/**\n * a /* b\n *\n *    * c\n * * d\n */" =
      [⟨.javadoc, "/**\n * a /* b\n *\n *    * c\n * * d\n */", ⟨0, 37, 1, 1, 6, 4⟩⟩,
        ⟨.eof, "", ⟨37, 37, 6, 4, 6, 4⟩⟩] := by decide +kernel
  have read := lex_documentationComment documentable
  rw [written, spans] at read
  exact ⟨documentable, read⟩

end Token

end EntityFlow

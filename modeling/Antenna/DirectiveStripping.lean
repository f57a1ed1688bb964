import Antenna.LineStorage

/-!
`strip_leading_directives` as the source runs it: a loop without a bound, whose scan yields byte
offsets.
-/

namespace LeanAntenna

open Text Turtle

section Bytes

/-- The scan over `char_indices`: the byte offset behind the first dot outside of an IRI. -/
def directiveOffset (inIri : Bool) (offset : Nat) : Text → Option Nat
  | [] => none
  | '<' :: rest => directiveOffset true (offset + '<'.utf8Size) rest
  | '>' :: rest => directiveOffset false (offset + '>'.utf8Size) rest
  | c :: rest =>
      if c = '.' ∧ inIri = false then some (offset + 1)
      else directiveOffset inIri (offset + c.utf8Size) rest

/-- `&text[offset..]`, which panics inside of a character and behind the end. -/
def sliceFrom : Text → Nat → Option Text
  | text, 0 => some text
  | [], _ + 1 => none
  | c :: rest, offset + 1 =>
      if c.utf8Size ≤ offset + 1 then sliceFrom rest (offset + 1 - c.utf8Size) else none

theorem sliceFrom_cons (c : Char) (rest : Text) (offset : Nat) :
    sliceFrom (c :: rest) (c.utf8Size + offset) = sliceFrom rest offset := by
  have positive := c.utf8Size_pos
  cases size : c.utf8Size + offset with
  | zero => omega
  | succ less =>
      rw [sliceFrom, if_pos (by omega)]
      congr 1
      omega

theorem offset_none {inIri : Bool} {text : Text} (never : directiveEnd inIri text = none)
    (base : Nat) : directiveOffset inIri base text = none := by
  fun_induction directiveEnd inIri text generalizing base with
  | case1 => rfl
  | case2 inIri rest ih => exact ih never _
  | case3 inIri rest ih => exact ih never _
  | case4 inIri c rest opening closing ends => cases never
  | case5 inIri c rest opening closing goes ih =>
      rw [directiveOffset, if_neg goes]
      · exact ih never _
      · exact opening
      · exact closing

/-- The slice behind the scan is the text behind the dot, and it never panics. -/
theorem slice_offset {inIri : Bool} {text rest : Text} (ends : directiveEnd inIri text = some rest)
    (base : Nat) :
    ∃ offset, directiveOffset inIri base text = some (base + offset) ∧
      sliceFrom text offset = some rest := by
  fun_induction directiveEnd inIri text generalizing base with
  | case1 => cases ends
  | case2 inIri behind ih =>
      obtain ⟨offset, found, sliced⟩ := ih ends (base + '<'.utf8Size)
      exact ⟨'<'.utf8Size + offset, by rw [directiveOffset, found, Nat.add_assoc],
        by rw [sliceFrom_cons, sliced]⟩
  | case3 inIri behind ih =>
      obtain ⟨offset, found, sliced⟩ := ih ends (base + '>'.utf8Size)
      exact ⟨'>'.utf8Size + offset, by rw [directiveOffset, found, Nat.add_assoc],
        by rw [sliceFrom_cons, sliced]⟩
  | case4 inIri c behind opening closing dot =>
      cases ends
      refine ⟨1, ?_, ?_⟩
      · rw [directiveOffset, if_pos dot]
        · exact opening
        · exact closing
      · rw [dot.1]
        rw [sliceFrom, if_pos (by decide)]
        cases rest <;> rfl
  | case5 inIri c behind opening closing goes ih =>
      obtain ⟨offset, found, sliced⟩ := ih ends (base + c.utf8Size)
      refine ⟨c.utf8Size + offset, ?_, by rw [sliceFrom_cons, sliced]⟩
      rw [directiveOffset, if_neg goes, found, Nat.add_assoc]
      · exact opening
      · exact closing

end Bytes

section Loop

/-- The `while` loop, from what is left of the line to what it returns. -/
inductive Strips : Text → Text → Prop where
  | done {text : Text} (plain : text.head? ≠ some '@') : Strips text text
  | unfinished {text : Text} (opens : text.head? = some '@')
      (never : directiveOffset false 0 text = none) : Strips text []
  | next {text rest result : Text} {offset : Nat} (opens : text.head? = some '@')
      (ends : directiveOffset false 0 text = some offset) (sliced : sliceFrom text offset = some rest)
      (later : Strips (trimStart rest) result) : Strips text result

theorem stripDirectives_strips {rounds : Nat} {text : Text} (enough : text.length ≤ rounds) :
    Strips text (stripDirectives rounds text) := by
  induction rounds generalizing text with
  | zero =>
      have empty : text = [] := List.length_eq_zero_iff.mp (Nat.le_zero.mp enough)
      subst empty
      exact .done (by simp)
  | succ rounds ih =>
      rw [stripDirectives]
      split
      · rename_i opens
        cases scanned : directiveEnd false text with
        | none => exact .unfinished opens (offset_none scanned 0)
        | some rest =>
            obtain ⟨offset, ends, sliced⟩ := slice_offset scanned 0
            have shorter := directiveEnd_shorter scanned
            have trimmed := (trimStart_suffix rest).length_le
            rw [Nat.zero_add] at ends
            exact .next opens ends sliced (ih (by omega))
      · rename_i plain
        exact .done plain

theorem Strips.unique {text left right : Text} (one : Strips text left) (two : Strips text right) :
    left = right := by
  induction one with
  | done plain =>
      cases two with
      | done => rfl
      | unfinished opens => exact absurd opens plain
      | next opens => exact absurd opens plain
  | unfinished opens never =>
      cases two with
      | done plain => exact absurd opens plain
      | unfinished => rfl
      | next _ ends => simp [never] at ends
  | next opens ends sliced _ ih =>
      cases two with
      | done plain => exact absurd opens plain
      | unfinished _ never => simp [never] at ends
      | next _ endsToo slicedToo later =>
          cases ends.symm.trans endsToo
          cases sliced.symm.trans slicedToo
          exact ih later

/-- The loop returns, and what it returns is the stripped line. -/
theorem strips_iff (line result : Text) :
    Strips (trimStart line) result ↔ result = stripLeadingDirectives line := by
  have returns : Strips (trimStart line) (stripLeadingDirectives line) :=
    stripDirectives_strips (trimStart_suffix line).length_le
  constructor
  · exact fun strips => strips.unique returns
  · rintro rfl
    exact returns

theorem sliceFrom_suffix {text rest : Text} {offset : Nat} (sliced : sliceFrom text offset = some rest) :
    rest <:+ text := by
  fun_induction sliceFrom text offset with
  | case1 text =>
      cases sliced
      exact List.suffix_refl _
  | case2 => cases sliced
  | case3 c behind offset fits ih => exact (ih sliced).trans (List.suffix_cons c behind)
  | case4 => cases sliced

/-- The text is empty or starts with neither a directive nor white space. -/
def Plain (text : Text) : Prop := ∀ c ∈ text.head?, c ≠ '@' ∧ isWhitespace c = false

theorem trimStart_head (text : Text) : ∀ c ∈ (trimStart text).head?, isWhitespace c = false := by
  intro c found
  unfold trimStart at found
  have visible := List.head?_dropWhile_not isWhitespace text
  rw [Option.mem_def.mp found] at visible
  simpa using visible

theorem Strips.plain {text result : Text} (strips : Strips text result)
    (visible : ∀ c ∈ text.head?, isWhitespace c = false) : result <:+ text ∧ Plain result := by
  induction strips with
  | @done text plain =>
      refine ⟨List.suffix_refl _, fun c found => ⟨?_, visible c found⟩⟩
      rintro rfl
      exact plain found
  | unfinished => exact ⟨List.nil_suffix, by simp [Plain]⟩
  | @next text rest _ _ _ _ sliced _ ih =>
      obtain ⟨shorter, plain⟩ := ih (trimStart_head rest)
      exact ⟨(shorter.trans (trimStart_suffix rest)).trans (sliceFrom_suffix sliced), plain⟩

theorem stripLeadingDirectives_plain (line : Text) :
    stripLeadingDirectives line <:+ line ∧ Plain (stripLeadingDirectives line) := by
  obtain ⟨shorter, plain⟩ := ((strips_iff line _).mpr rfl).plain (trimStart_head line)
  exact ⟨shorter.trans (trimStart_suffix line), plain⟩

theorem trimStart_plain {text : Text} (plain : Plain text) : trimStart text = text := by
  cases text with
  | nil => rfl
  | cons c text => exact trimStart_cons (plain c rfl).2

theorem strip_plain {text : Text} (plain : Plain text) : stripLeadingDirectives text = text := by
  have trimmed := trimStart_plain plain
  rw [stripLeadingDirectives_data, trimmed]
  rw [trimmed]
  exact fun opens => (plain '@' opens).1 rfl

end Loop

section Directives

/-- The directives at the front of a line are dropped and nothing else; on every line the loop returns
a suffix with no directive or white space in front, and a second time nothing is left to drop. -/
theorem strip_leading_directives_exact {directives : List WrittenDirective} {lead body : Text}
    (lenient : ∀ written ∈ directives, Lenient written) (blank : ∀ c ∈ lead, isWhitespace c = true)
    (plain : Plain body) :
    stripLeadingDirectives (lead ++ (directives.flatMap WrittenDirective.text ++ body)) = body ∧
      ∀ line, (∀ result, Strips (trimStart line) result ↔ result = stripLeadingDirectives line) ∧
        stripLeadingDirectives line <:+ line ∧ Plain (stripLeadingDirectives line) ∧
        stripLeadingDirectives (stripLeadingDirectives line) = stripLeadingDirectives line := by
  constructor
  · rw [stripLeadingDirectives_space blank, strip_texts lenient, strip_plain plain]
  · intro line
    obtain ⟨shorter, unmarked⟩ := stripLeadingDirectives_plain line
    exact ⟨strips_iff line, shorter, unmarked, strip_plain unmarked⟩

/-- `@prefix ex:<http://a.b/> .`, with a line separator as its white space. -/
def spacedDirective : WrittenDirective where
  directive := .declare "ex".toList "http://a.b/".toList
  before := [' ']
  middle := []
  after := [Char.ofNat 0x2028]
  gap := [' ']

theorem strip_leading_directives_exact_spaced :
    stripLeadingDirectives ([' '] ++ ([spacedDirective].flatMap WrittenDirective.text ++
        "[] a ex:T .".toList)) = "[] a ex:T .".toList ∧
      ∀ line, (∀ result, Strips (trimStart line) result ↔ result = stripLeadingDirectives line) ∧
        stripLeadingDirectives line <:+ line ∧ Plain (stripLeadingDirectives line) ∧
        stripLeadingDirectives (stripLeadingDirectives line) = stripLeadingDirectives line := by
  have lenient : ∀ written ∈ [spacedDirective], Lenient written := by
    intro written member
    rw [List.mem_singleton.mp member]
    exact ⟨by decide, by decide, by decide⟩
  exact strip_leading_directives_exact lenient (by decide) (by unfold Plain; decide)

end Directives

end LeanAntenna

import LightningServer.Net.Acceptance

/-!
# Messages that more bytes complete

`parse` returns false when the header block has no end yet, when its first
line is no request line, and when the body is short; the session reads on in
each case.  Bytes that follow repair the first, and the last as long as the
buffer can hold the body that was declared.  Nothing repairs a first line that
has arrived whole, and no buffer holds the 2^64 - 1 bytes that a length of -1
stands for.
-/

namespace LightningServer.Net.HttpParser

open LightningServer.Foundation
open LightningServer.Foundation.Framing
open LightningServer.Foundation.Numerals

/-! ## The lines that have arrived -/

/-- Everything up to the last line feed. -/
def arrived (data : Bytes) : Bytes :=
  data.rdropWhile fun byte => byte ≠ lineFeed

theorem arrived_cases (data : Bytes) :
    arrived data = [] ∧ lineFeed ∉ data ∨
      ∃ front later, lineFeed ∉ later ∧
        data = front ++ lineFeed :: later ∧
          arrived data = front ++ [lineFeed] := by
  induction data using List.reverseRecOn with
  | nil => exact Or.inl ⟨rfl, by simp⟩
  | append_singleton data byte induction =>
      rw [arrived, List.rdropWhile_concat]
      by_cases ends : byte = lineFeed
      · subst ends
        right
        refine ⟨data, [], by simp, rfl, ?_⟩
        simp
      · rw [if_pos (by simpa using ends)]
        rcases induction with ⟨none, clean⟩ | ⟨front, later, clean, rfl, up⟩
        · left
          refine ⟨none, ?_⟩
          simp [clean, Ne.symm ends]
        · right
          refine ⟨front, later ++ [byte], ?_, by simp, up⟩
          simp [clean, Ne.symm ends]

theorem strippedLines_append (first second : List Bytes) :
    strippedLines (first ++ second) =
      strippedLines first ++ strippedLines second := by
  simp [strippedLines]

/-- The first line with something on it is a request line, if there is one. -/
def Starts (lines : Bytes) : Prop :=
  ∀ line ∈ (strippedLines (getlines lineFeed lines)).head?,
    (parseRequestLine line {}).1 = true

instance (lines : Bytes) : Decidable (Starts lines) :=
  inferInstanceAs (Decidable (∀ line ∈ _, _))

/-- The line loop succeeds on such lines. -/
theorem starts_iff (lines : Bytes) :
    Starts lines ↔
      (parseLines true (getlines lineFeed lines) {}).1 = true := by
  rw [Starts, parseLines_true_eq]
  cases strippedLines (getlines lineFeed lines) with
  | nil => simp
  | cons first fields =>
      simp only [List.head?_cons, Option.mem_some_iff, forall_eq']
      by_cases valid : (parseRequestLine first {}).1 = true
      · simp [valid]
      · simp [valid]

/-- Later lines do not change the first. -/
theorem Starts.of_append
    {front later : Bytes} (starts : Starts (front ++ lineFeed :: later)) :
    Starts (front ++ [lineFeed]) := by
  intro line isFirst
  apply starts line
  rw [Option.mem_def] at isFirst ⊢
  rw [getlines_append, strippedLines_append, List.head?_append, isFirst]
  rfl

/--
What a header block becomes when its end turns out to be the end of a line:
a carriage return that was stripped stays, which only shows on a line that is
nothing else.
-/
theorem Starts.crlf
    {block : Bytes} (starts : Starts block)
    (someLine : strippedLines (getlines lineFeed block) ≠ []) :
    Starts (block ++ [carriageReturn, lineFeed]) := by
  have whole (line : Bytes) :
      popCarriageReturn (line ++ [carriageReturn]) = line := by
    simp [popCarriageReturn]
  have single {last : Bytes} (clean : lineFeed ∉ last) :
      strippedLines (getlines lineFeed
          (last ++ [carriageReturn, lineFeed])) =
        if last = [] then [] else [last] := by
    have noFeed : lineFeed ∉ last ++ [carriageReturn] := by
      rw [List.mem_append, not_or]
      exact ⟨clean, by decide⟩
    have cut := getlines_cons noFeed []
    rw [List.append_assoc, List.singleton_append] at cut
    rw [cut, strippedLines_cons, whole]
    rfl
  have lone {last : Bytes} (clean : lineFeed ∉ last) :
      strippedLines (getlines lineFeed last) =
        if popCarriageReturn last = [] then []
        else [popCarriageReturn last] := by
    cases last with
    | nil => rfl
    | cons byte rest =>
        rw [getlines_last clean (List.cons_ne_nil byte rest),
          strippedLines_cons]
        rfl
  -- the last line, behind the lines `front`
  have replace (front : List Bytes) {last : Bytes}
      (valid :
        ∀ line ∈ (front ++ if popCarriageReturn last = [] then []
            else [popCarriageReturn last]).head?,
          (parseRequestLine line {}).1 = true)
      (nonempty :
        (front ++ if popCarriageReturn last = [] then []
          else [popCarriageReturn last]) ≠ []) :
      ∀ line ∈ (front ++ if last = [] then [] else [last]).head?,
        (parseRequestLine line {}).1 = true := by
    cases front with
    | cons first others => exact valid
    | nil =>
        by_cases blank : popCarriageReturn last = []
        · rw [if_pos blank] at nonempty
          exact absurd rfl nonempty
        · rw [if_neg blank] at valid
          have kept := valid _ rfl
          rw [parseRequestLine_popCarriageReturn] at kept
          by_cases empty : last = []
          · simp [empty]
          · simpa [empty] using kept
  rcases arrived_cases block with
    ⟨-, clean⟩ | ⟨front, last, clean, rfl, -⟩
  · rw [Starts, lone clean] at starts
    rw [lone clean] at someLine
    rw [Starts, single clean]
    exact replace [] starts someLine
  · rw [Starts, getlines_append, strippedLines_append, lone clean] at starts
    rw [getlines_append, strippedLines_append, lone clean] at someLine
    rw [Starts, List.append_assoc, List.cons_append, getlines_append,
      strippedLines_append, single clean]
    exact replace _ starts someLine

/-- Three more words, and a length of 0: what ends any header block well. -/
def closingLines : Bytes :=
  ascii "a b c\r\ncontent-length:0"

theorem strippedLines_closing {later : Bytes} (clean : lineFeed ∉ later) :
    strippedLines (getlines lineFeed (later ++ space :: closingLines)) =
      [later ++ ascii " a b c", ascii "content-length:0"] := by
  have cut :
      later ++ space :: closingLines =
        (later ++ ascii " a b c\r") ++
          lineFeed :: ascii "content-length:0" := by
    rw [List.append_assoc]
    rfl
  have noFeed : lineFeed ∉ later ++ ascii " a b c\r" := by
    rw [List.mem_append, not_or]
    exact ⟨clean, by decide⟩
  have whole :
      popCarriageReturn (later ++ ascii " a b c\r") =
        later ++ ascii " a b c" := by
    have ending : ascii " a b c\r" = ascii " a b c" ++ [carriageReturn] := rfl
    rw [ending, ← List.append_assoc]
    simp [popCarriageReturn]
  have words : later ++ ascii " a b c" ≠ [] := by
    simp [ascii, ofChars]
  rw [cut, getlines_cons noFeed, getlines_last (by decide) (by decide),
    strippedLines_cons, whole, if_neg words]
  rfl

theorem exists_strippedLines_closing (data : Bytes) :
    ∃ later,
      strippedLines (getlines lineFeed (data ++ space :: closingLines)) =
        strippedLines (getlines lineFeed (arrived data)) ++
          [later ++ ascii " a b c", ascii "content-length:0"] := by
  rcases arrived_cases data with
    ⟨none, clean⟩ | ⟨front, later, clean, rfl, up⟩
  · refine ⟨data, ?_⟩
    rw [none, strippedLines_closing clean]
    rfl
  · refine ⟨later, ?_⟩
    rw [up, List.append_assoc, List.cons_append, getlines_append,
      strippedLines_append, strippedLines_closing clean]

/-- Whatever stands before them, there are three words. -/
theorem parseRequestLine_closing (later : Bytes) :
    (parseRequestLine (later ++ ascii " a b c") {}).1 = true := by
  have ending : ascii " a b c" = space :: ascii "a b c" := rfl
  have three :
      words isspace (later ++ ascii " a b c") =
        words isspace later ++ [ascii "a", ascii "b", ascii "c"] := by
    rw [ending, words_append (by decide)]
    congr 1
  rw [parseRequestLine_iff, three]
  match words isspace later with
  | [] => exact ⟨_, _, _, _, rfl⟩
  | [_] => exact ⟨_, _, _, _, rfl⟩
  | [_, _] => exact ⟨_, _, _, _, rfl⟩
  | _ :: _ :: _ :: _ => exact ⟨_, _, _, _, rfl⟩

/-- The last line declares a length of 0. -/
theorem getLast?_closing (front : List Bytes) :
    ((front ++ [ascii "content-length:0"]).filterMap
        (valueNamed (ascii "content-length"))).getLast? =
      some (ascii "0") := by
  have value :
      valueNamed (ascii "content-length") (ascii "content-length:0") =
        some (ascii "0") := by
    decide +kernel
  rw [List.filterMap_append, List.filterMap_cons_some value]
  simp

/-! ## Messages that can still become requests -/

/-- The header block and the body that it declares are within the limit. -/
def BodyFits (limit : Nat) (block : Bytes) : Prop :=
  ∀ value ∈ declaredLength block,
    ∀ number ∈ (stoul (chars value)).toOption,
      block.length + 4 + number ≤ limit

instance (limit : Nat) (block : Bytes) : Decidable (BodyFits limit block) :=
  inferInstanceAs (Decidable (∀ value ∈ _, ∀ number ∈ _, _))

/--
If the end of the header block has arrived, it begins with a request line and
the body it declares fits.  If it has not, the lines that have arrived whole
begin so, or the block that would end right here has no line at all.
-/
def Promising (limit : Nat) (data : Bytes) : Prop :=
  match data.dropInfix? dblcrlf with
  | some (block, _) => Starts block ∧ BodyFits limit block
  | none =>
      Starts (arrived data) ∨
        ∃ block,
          (data = block ++ [carriageReturn, lineFeed] ∨
            data = block ++ [carriageReturn, lineFeed, carriageReturn]) ∧
          strippedLines (getlines lineFeed block) = []

/-- The declared body is longer than what is there. -/
theorem exists_of_takeBody_false
    {req : HttpRequest} {rest : Bytes}
    (short : (takeBody req rest).1 = .ok false) :
    ∃ value number, req.headers[ascii "content-length"]? = some value ∧
      stoul (chars value) = .ok number ∧ rest.length < number := by
  rw [takeBody] at short
  cases declared : req.headers[ascii "content-length"]? with
  | none =>
      rw [declared] at short
      cases short
  | some value =>
      rw [declared] at short
      cases converted : stoul (chars value) with
      | error exception =>
          simp only [converted] at short
          cases short
      | ok number =>
          simp only [converted] at short
          by_cases missing : rest.length < number
          · exact ⟨value, number, rfl, converted, missing⟩
          · rw [if_neg missing] at short
            cases short

section Terminated

variable {limit : Nat} {data block rest : Bytes}
  (found : data.dropInfix? dblcrlf = some (block, rest))
include found

theorem length_terminated :
    data.length = block.length + 4 + rest.length := by
  rw [eq_of_dropInfix? found]
  simp only [List.length_append, dblcrlf, List.length_cons,
    List.length_nil]

/-- A block that was completed within the limit has a body that fits. -/
theorem promising_of_terminated
    {more : Bytes} (within : (data ++ more).length ≤ limit)
    (completed : (parseBytes (data ++ more) {}).1 = .ok true) :
    Starts block ∧ BodyFits limit block := by
  rcases (parseBytes_accepted_iff _).mp completed with
    ⟨block', rest', split, complete, taken⟩
  have size := length_terminated split
  rw [dropInfix?_append found more] at split
  cases split
  refine ⟨(starts_iff block).mpr complete, ?_⟩
  rw [takeBody_accepted_iff, getElem?_contentLength] at taken
  intro value declared number converts
  rcases taken value declared with ⟨number', converted, enough⟩
  rw [converted] at converts
  cases converts
  omega

/-- A short body that fits is completed by any bytes. -/
theorem exists_body
    (incomplete : (parseBytes data {}).1 = .ok false)
    (starts : Starts block) (fits : BodyFits limit block) :
    ∃ more, (data ++ more).length ≤ limit ∧
      (parseBytes (data ++ more) {}).1 = .ok true := by
  have complete := (starts_iff block).mp starts
  rw [parseBytes_request found complete] at incomplete
  rcases exists_of_takeBody_false incomplete with
    ⟨value, number, declared, converted, missing⟩
  have stored := getElem?_contentLength block
  rw [declared] at stored
  have bound := fits value stored.symm number (by rw [converted]; rfl)
  have size := length_terminated found
  refine ⟨List.replicate (number - rest.length) 0, ?_, ?_⟩
  · rw [List.length_append, List.length_replicate]
    omega
  · refine (parseBytes_accepted_iff _).mpr
      ⟨block, rest ++ List.replicate (number - rest.length) 0,
        dropInfix?_append found _, complete, ?_⟩
    rw [takeBody_accepted_iff, declared]
    rintro _ ⟨⟩
    refine ⟨number, converted, ?_⟩
    rw [List.length_append, List.length_replicate]
    omega

end Terminated

section Unterminated

variable {data : Bytes} (nowhere : data.dropInfix? dblcrlf = none)
include nowhere

/-- The end of the block falls behind the lines, or cuts the last of them. -/
theorem promising_of_completed
    {more block rest : Bytes}
    (found : (data ++ more).dropInfix? dblcrlf = some (block, rest))
    (starts : Starts block) :
    Starts (arrived data) ∨
      ∃ block,
        (data = block ++ [carriageReturn, lineFeed] ∨
          data = block ++ [carriageReturn, lineFeed, carriageReturn]) ∧
        strippedLines (getlines lineFeed block) = [] := by
  have elsewhere (before after : Bytes) :
      data ≠ before ++ dblcrlf ++ after := fun equal =>
    dropInfix?_ne_none equal nowhere
  rcases arrived_cases data with
    ⟨none, -⟩ | ⟨front, later, clean, rfl, up⟩
  · left
    rw [none]
    intro line isFirst
    cases isFirst
  · rw [up]
    have equal := eq_of_dropInfix? found
    rw [List.append_assoc front, List.append_assoc block] at equal
    rcases List.append_eq_append_iff.mp equal with
      ⟨inside, rfl, behind⟩ | ⟨beyond, rfl, behind⟩
    · -- the lines lie in the block
      cases inside with
      | nil => cases behind
      | cons byte inside =>
          rw [List.cons_append, List.cons_append, List.cons.injEq] at behind
          rw [← behind.1] at starts
          exact Or.inl starts.of_append
    · -- the last line feed lies behind the block
      rcases beyond with - | ⟨first, - | ⟨second, - | ⟨third, - |
        ⟨fourth, beyond⟩⟩⟩⟩
      · cases behind
      · simp only [dblcrlf, List.cons_append, List.nil_append,
          List.cons.injEq] at behind
        rcases behind with ⟨rfl, -, tail⟩
        by_cases someLine : strippedLines (getlines lineFeed block) = []
        · right
          refine ⟨block, ?_, someLine⟩
          rcases later with - | ⟨byte, - | ⟨next, later⟩⟩
          · exact Or.inl (by simp)
          · rw [List.cons_append, List.cons.injEq] at tail
            rw [← tail.1]
            exact Or.inr (by simp)
          · rw [List.cons_append, List.cons_append, List.cons.injEq,
              List.cons.injEq] at tail
            exact absurd (by simp [tail.2.1]) clean
        · left
          have whole := starts.crlf someLine
          simpa using whole
      · cases behind
      · simp only [dblcrlf, List.cons_append, List.nil_append,
          List.cons.injEq] at behind
        rcases behind with ⟨rfl, rfl, rfl, -⟩
        exact absurd (by simp [dblcrlf]) (elsewhere block later)
      · simp only [dblcrlf, List.cons_append, List.nil_append,
          List.cons.injEq] at behind
        rcases behind with ⟨rfl, rfl, rfl, rfl, -⟩
        exact absurd (by simp [dblcrlf])
          (elsewhere block (beyond ++ lineFeed :: later))

/-- Lines that begin well are completed by three more words. -/
theorem exists_request (starts : Starts (arrived data)) :
    ∃ more, more.length = 28 ∧
      (parseBytes (data ++ more) {}).1 = .ok true := by
  refine ⟨space :: (closingLines ++ dblcrlf), rfl, ?_⟩
  have closes :
      (closingLines ++ dblcrlf).dropInfix? dblcrlf =
        some (closingLines, []) := by
    decide +kernel
  have found := dropInfix?_fence (show space ∉ dblcrlf by decide) nowhere closes
  rcases exists_strippedLines_closing data with ⟨later, lines⟩
  refine (parseBytes_accepted_iff _).mpr ⟨_, [], found, ?_, ?_⟩
  · rw [← starts_iff, Starts, lines, List.head?_append]
    cases first : (strippedLines (getlines lineFeed (arrived data))).head? with
    | some line =>
        rintro _ ⟨⟩
        exact starts line first
    | none =>
        rintro _ ⟨⟩
        exact parseRequestLine_closing later
  · have valid :
        declaredLength (data ++ space :: closingLines) = some (ascii "0") := by
      rw [declaredLength, lines]
      cases rows : strippedLines (getlines lineFeed (arrived data)) with
      | nil =>
          simp only [List.nil_append, parseRequestLine_closing, if_true]
          exact getLast?_closing []
      | cons first fields =>
          have isFirst : (parseRequestLine first {}).1 = true :=
            starts first (by rw [rows]; rfl)
          simp only [List.cons_append, isFirst, if_true]
          have last := getLast?_closing (fields ++ [later ++ ascii " a b c"])
          rwa [List.append_assoc, List.singleton_append] at last
    rw [takeBody_accepted_iff, getElem?_contentLength, valid]
    rintro _ ⟨⟩
    exact ⟨0, by decide, Nat.zero_le _⟩

/-- A block without lines is accepted once its end has arrived. -/
theorem exists_end
    {block : Bytes}
    (ends :
      data = block ++ [carriageReturn, lineFeed] ∨
        data = block ++ [carriageReturn, lineFeed, carriageReturn])
    (noLine : strippedLines (getlines lineFeed block) = []) :
    ∃ more, more.length ≤ 2 ∧
      (parseBytes (data ++ more) {}).1 = .ok true := by
  have empty :
      parseLines true (getlines lineFeed block) {} = (true, {}) := by
    rw [parseLines_true_eq, noLine]
  have accepted {more : Bytes}
      (found : (data ++ more).dropInfix? dblcrlf = some (block, [])) :
      (parseBytes (data ++ more) {}).1 = .ok true := by
    refine (parseBytes_accepted_iff _).mpr ⟨block, [], found, ?_, ?_⟩
    · rw [empty]
    · rw [empty, takeBody_of_none []]
      exact Std.ExtTreeMap.getElem?_empty
  rcases ends with rfl | rfl
  · refine ⟨[carriageReturn, lineFeed], Nat.le_refl 2, accepted ?_⟩
    have none := dropInfix?_concat_none nowhere
      (show dblcrlf.getLast? ≠ some carriageReturn by decide)
    have found :
        (block ++ [carriageReturn, lineFeed] ++ [carriageReturn] ++
            [lineFeed]).dropInfix? dblcrlf = some (block, []) :=
      dropInfix?_completed none (by simp [dblcrlf])
    rwa [List.append_assoc _ [carriageReturn]] at found
  · exact ⟨[lineFeed], Nat.le_succ 1, accepted
      (dropInfix?_completed nowhere (by simp [dblcrlf]))⟩

end Unterminated

/-- What completes a message, within the limit, from a message below it. -/
theorem exists_completed_iff
    {limit : Nat} {data : Bytes} (room : data.length + 28 ≤ limit)
    (incomplete : (parseBytes data {}).1 = .ok false) :
    (∃ more, (data ++ more).length ≤ limit ∧
        (parseBytes (data ++ more) {}).1 = .ok true) ↔
      Promising limit data := by
  rw [Promising]
  cases found : data.dropInfix? dblcrlf with
  | some split =>
      rcases split with ⟨block, rest⟩
      constructor
      · rintro ⟨more, within, completed⟩
        exact promising_of_terminated found within completed
      · rintro ⟨starts, fits⟩
        exact exists_body found incomplete starts fits
  | none =>
      constructor
      · rintro ⟨more, -, completed⟩
        rcases (parseBytes_accepted_iff _).mp completed with
          ⟨block, rest, split, complete, -⟩
        exact promising_of_completed found split
          ((starts_iff block).mpr complete)
      · rintro (starts | ⟨block, ends, noLine⟩)
        · rcases exists_request found starts with ⟨more, size, completed⟩
          exact ⟨more, by rw [List.length_append]; omega, completed⟩
        · rcases exists_end found ends noLine with ⟨more, size, completed⟩
          exact ⟨more, by rw [List.length_append]; omega, completed⟩

/-- `std::vector<char>::max_size()`. -/
def maxSize : Nat := 2 ^ 63 - 1

end LightningServer.Net.HttpParser

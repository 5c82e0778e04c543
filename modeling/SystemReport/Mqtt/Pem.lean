import SystemReport.Mqtt.Tls

/-!
# PEM extraction

`pem_blocks` looks for its markers anywhere in a text, so that what it returns depends on where
markers can turn up: in other blocks, in their headers, where two blocks meet.  `Extracts` and
`Unclosed` say what its loop comes to on an arbitrary text, and `Document` is a sequence of blocks of
any kinds with other text between them.  `pem_extraction` puts the two together.
-/

set_option autoImplicit false

open Search

namespace SystemReport
namespace Mqtt
namespace Pem

/-! ## From bytes to bytes -/

/-- The error of `pem_blocks`. -/
def invalid (kind : String) : String := "TLS identity requires PEM " ++ kind ++ " material"

/-- `pem_blocks`, from the bytes of a file. -/
def pemBlocksOf (bytes : ByteArray) (kind : String) : Except String ByteArray :=
  match String.fromUTF8? bytes with
  | none => .error (invalid kind)
  | some text => (pemBlocks text kind).map String.toUTF8

/-- The `while` loop of `pem_blocks`, for a number of turns: it may still run, or have returned an
error, or have left a `result`. -/
def loop (opening closing : List Char) :
    (turns : ℕ) → (rest result : List Char) → Option (Option (List Char))
  | 0, _, _ => none
  | turns + 1, rest, result =>
    match Text.findList opening rest with
    | none => some (some result)
    | some (_, body) =>
      match Text.findList closing (opening ++ body) with
      | none => some none
      | some (block, rest') => loop opening closing turns rest' (result ++ block ++ closing ++ ['\n'])

/-- What `pem_blocks` makes of the outcome of its loop. -/
def afterLoop (kind : String) : Option (List Char) → Except String String
  | some (c :: cs) => .ok (.ofList (c :: cs))
  | some [] => .error (invalid kind)
  | none => .error (invalid kind)

/-! ## What the loop comes to -/

/-- The loop takes these blocks out of the text, one after the other, and then finds no other
beginning. -/
inductive Extracts (opening closing : List Char) : (text : List Char) → List (List Char) → Prop
  | done {text : List Char} (h : ¬ opening <:+: text) : Extracts opening closing text []
  | block {text skipped body before rest : List Char} {blocks : List (List Char)}
      (hopen : First opening text skipped body) (hclose : First closing (opening ++ body) before rest)
      (h : Extracts opening closing rest blocks) :
      Extracts opening closing text ((before ++ closing) :: blocks)

/-- After some blocks, the loop finds a beginning without an end. -/
inductive Unclosed (opening closing : List Char) : (text : List Char) → Prop
  | here {text skipped body : List Char} (hopen : First opening text skipped body)
      (hclose : ¬ closing <:+: opening ++ body) : Unclosed opening closing text
  | later {text skipped body before rest : List Char} (hopen : First opening text skipped body)
      (hclose : First closing (opening ++ body) before rest) (h : Unclosed opening closing rest) :
      Unclosed opening closing text

/-- The blocks as they are returned. -/
def lines (blocks : List (List Char)) : List Char := blocks.flatMap (· ++ ['\n'])

section Loop

variable {opening closing : List Char} (hclosing : closing ≠ []) {text rest : List Char}

/-- One turn of the loop, without the bookkeeping of its termination. -/
theorem pemBlocksFrom_eq (text : List Char) :
    pemBlocksFrom opening closing hclosing text =
      (Text.findList opening text).elim (some []) fun found =>
        (Text.findList closing (opening ++ found.2)).bind fun found' =>
          (pemBlocksFrom opening closing hclosing found'.2).map fun more =>
            found'.1 ++ closing ++ '\n' :: more := by
  rw [pemBlocksFrom]
  split
  · rename_i hopen
    rw [hopen]
    rfl
  · rename_i hopen
    rw [hopen, Option.elim_some]
    split
    · rename_i hclose
      rw [hclose]
      rfl
    · rename_i hclose
      rw [hclose]
      rfl

theorem pemBlocksFrom_of_not_occurs (h : ¬ opening <:+: text) :
    pemBlocksFrom opening closing hclosing text = some [] := by
  rw [pemBlocksFrom_eq, Text.findList_eq_none_iff.2 h]
  rfl

theorem pemBlocksFrom_of_not_closed {skipped body : List Char}
    (hopen : First opening text skipped body) (hclose : ¬ closing <:+: opening ++ body) :
    pemBlocksFrom opening closing hclosing text = none := by
  rw [pemBlocksFrom_eq, Text.findList_eq_some_iff.2 hopen, Option.elim_some,
    Text.findList_eq_none_iff.2 hclose]
  rfl

theorem pemBlocksFrom_of_block {skipped body before : List Char}
    (hopen : First opening text skipped body) (hclose : First closing (opening ++ body) before rest) :
    pemBlocksFrom opening closing hclosing text =
      (pemBlocksFrom opening closing hclosing rest).map fun more =>
        before ++ closing ++ '\n' :: more := by
  rw [pemBlocksFrom_eq, Text.findList_eq_some_iff.2 hopen, Option.elim_some,
    Text.findList_eq_some_iff.2 hclose]
  rfl

theorem pemBlocksFrom_of_extracts {blocks : List (List Char)}
    (h : Extracts opening closing text blocks) :
    pemBlocksFrom opening closing hclosing text = some (lines blocks) := by
  induction h with
  | done h => exact pemBlocksFrom_of_not_occurs hclosing h
  | block hopen hclose _ ih =>
    rw [pemBlocksFrom_of_block hclosing hopen hclose, ih]
    simp [lines]

theorem pemBlocksFrom_of_unclosed (h : Unclosed opening closing text) :
    pemBlocksFrom opening closing hclosing text = none := by
  induction h with
  | here hopen hclose => exact pemBlocksFrom_of_not_closed hclosing hopen hclose
  | later hopen hclose _ ih => rw [pemBlocksFrom_of_block hclosing hopen hclose, ih, Option.map_none]

include hclosing in
/-- A block that is taken out leaves less text. -/
theorem length_lt_of_block {skipped body before : List Char}
    (hopen : First opening text skipped body) (hclose : First closing (opening ++ body) before rest) :
    rest.length < text.length := by
  have hpos := List.length_pos_iff.2 hclosing
  have hlength := congrArg List.length hclose.split
  rw [hopen.split]
  simp only [List.length_append] at hlength ⊢
  omega

include hclosing in
/-- There is no other way to end. -/
theorem extracts_or_unclosed (text : List Char) :
    (∃ blocks, Extracts opening closing text blocks) ∨ Unclosed opening closing text := by
  induction hlength : text.length using Nat.strong_induction_on generalizing text with
  | _ n ih =>
    cases hopen : Text.findList opening text with
    | none => exact .inl ⟨[], .done (Text.findList_eq_none_iff.1 hopen)⟩
    | some found =>
      obtain ⟨skipped, body⟩ := found
      have hopen := Text.findList_eq_some_iff.1 hopen
      cases hclose : Text.findList closing (opening ++ body) with
      | none => exact .inr (.here hopen (Text.findList_eq_none_iff.1 hclose))
      | some found =>
        obtain ⟨before, rest⟩ := found
        have hclose := Text.findList_eq_some_iff.1 hclose
        have hlt := length_lt_of_block hclosing hopen hclose
        rcases ih rest.length (hlength ▸ hlt) rest rfl with ⟨blocks, h⟩ | h
        · exact .inl ⟨_, .block hopen hclose h⟩
        · exact .inr (.later hopen hclose h)

/-- **The loop terminates**, after at most one turn for each character and one more. -/
theorem loop_eq (turns : ℕ) (text result : List Char) (h : text.length < turns) :
    loop opening closing turns text result =
      some ((pemBlocksFrom opening closing hclosing text).map (result ++ ·)) := by
  induction turns generalizing text result with
  | zero => omega
  | succ turns ih =>
    rw [loop]
    cases hopen : Text.findList opening text with
    | none =>
      rw [pemBlocksFrom_of_not_occurs hclosing (Text.findList_eq_none_iff.1 hopen)]
      simp
    | some found =>
      obtain ⟨skipped, body⟩ := found
      have hfirst := Text.findList_eq_some_iff.1 hopen
      dsimp only
      cases hclose : Text.findList closing (opening ++ body) with
      | none =>
        rw [pemBlocksFrom_of_not_closed hclosing hfirst (Text.findList_eq_none_iff.1 hclose)]
        rfl
      | some found =>
        obtain ⟨before, rest⟩ := found
        have hlast := Text.findList_eq_some_iff.1 hclose
        have hlt := length_lt_of_block hclosing hfirst hlast
        dsimp only
        rw [ih rest _ (by omega), pemBlocksFrom_of_block hclosing hfirst hlast, Option.map_map]
        congr 2
        funext more
        simp

end Loop

/-! ## Markers -/

/-- Five dashes, with which a marker begins and ends. -/
def dashes : List Char := ['-', '-', '-', '-', '-']

/-- `begin`. -/
def opening (kind : List Char) : List Char := dashes ++ ("BEGIN ".toList ++ (kind ++ dashes))

/-- `end`. -/
def closing (kind : List Char) : List Char := dashes ++ ("END ".toList ++ (kind ++ dashes))

theorem closing_ne_nil (kind : List Char) : closing kind ≠ [] := by simp [closing, dashes]

theorem toList_opening (kind : String) :
    ("-----BEGIN " ++ kind ++ "-----").toList = opening kind.toList := by
  simp [opening, dashes]

theorem toList_closing (kind : String) :
    ("-----END " ++ kind ++ "-----").toList = closing kind.toList := by
  simp [closing, dashes]

theorem pemBlocks_eq (text kind : String) :
    pemBlocks text kind = afterLoop kind
      (pemBlocksFrom (opening kind.toList) (closing kind.toList) (closing_ne_nil _) text.toList) := by
  have hfrom : ∀ {o c : List Char} (hc : c ≠ []), o = opening kind.toList →
      c = closing kind.toList → pemBlocksFrom o c hc text.toList =
        pemBlocksFrom (opening kind.toList) (closing kind.toList) (closing_ne_nil _) text.toList := by
    rintro _ _ hc rfl rfl
    rfl
  rw [pemBlocks, hfrom _ (toList_opening kind) (toList_closing kind)]
  generalize pemBlocksFrom (opening kind.toList) (closing kind.toList) _ text.toList = outcome
  rcases outcome with _ | _ | _ <;> rfl

theorem lines_eq_nil_iff {blocks : List (List Char)} : lines blocks = [] ↔ blocks = [] := by
  cases blocks <;> simp [lines]

theorem pemBlocks_of_extracts {text kind : String} {blocks : List (List Char)}
    (h : Extracts (opening kind.toList) (closing kind.toList) text.toList blocks)
    (hne : blocks ≠ []) : pemBlocks text kind = .ok (.ofList (lines blocks)) := by
  rw [pemBlocks_eq, pemBlocksFrom_of_extracts _ h]
  cases hlines : lines blocks with
  | nil => exact absurd (lines_eq_nil_iff.1 hlines) hne
  | cons c cs => rfl

theorem pemBlocks_of_not_occurs {text kind : String}
    (h : ¬ opening kind.toList <:+: text.toList) : pemBlocks text kind = .error (invalid kind) := by
  rw [pemBlocks_eq, pemBlocksFrom_of_not_occurs _ h]
  rfl

theorem pemBlocks_of_unclosed {text kind : String}
    (h : Unclosed (opening kind.toList) (closing kind.toList) text.toList) :
    pemBlocks text kind = .error (invalid kind) := by
  rw [pemBlocks_eq, pemBlocksFrom_of_unclosed _ h]
  rfl

/-- **What `pem_blocks` comes to on a text.** -/
theorem pemBlocks_cases (text kind : String) :
    (∃ blocks, blocks ≠ [] ∧
      Extracts (opening kind.toList) (closing kind.toList) text.toList blocks ∧
      pemBlocks text kind = .ok (.ofList (lines blocks))) ∨
    ((¬ opening kind.toList <:+: text.toList ∨
        Unclosed (opening kind.toList) (closing kind.toList) text.toList) ∧
      pemBlocks text kind = .error (invalid kind)) := by
  rcases extracts_or_unclosed (closing_ne_nil kind.toList) text.toList with ⟨blocks, h⟩ | h
  · cases h with
    | done hno => exact .inr ⟨.inl hno, pemBlocks_of_not_occurs hno⟩
    | block hopen hclose hrest =>
      have hblocks := Extracts.block hopen hclose hrest
      exact .inl ⟨_, by simp, hblocks, pemBlocks_of_extracts hblocks (by simp)⟩
  · exact .inr ⟨.inr h, pemBlocks_of_unclosed h⟩

theorem pemBlocks_error_iff (text kind : String) :
    pemBlocks text kind = .error (invalid kind) ↔ ¬ opening kind.toList <:+: text.toList ∨
      Unclosed (opening kind.toList) (closing kind.toList) text.toList := by
  constructor
  · intro herror
    rcases pemBlocks_cases text kind with ⟨_, _, _, hok⟩ | ⟨h, _⟩
    · rw [herror] at hok
      cases hok
    · exact h
  · rintro (h | h)
    · exact pemBlocks_of_not_occurs h
    · exact pemBlocks_of_unclosed h

/-! ## The output once more -/

section Output

variable {kind text pre skipped body before rest : List Char} {blocks : List (List Char)}

/-- What has no beginning in it can stand in front. -/
theorem Extracts.skip (h : Extracts (opening kind) (closing kind) text blocks)
    (hpre : Skips (opening kind) pre text) :
    Extracts (opening kind) (closing kind) (pre ++ text) blocks := by
  cases h with
  | done hno =>
    have hne : opening kind ≠ [] := by simp [opening, dashes]
    refine .done ?_
    rw [← skips_iff_not_occurs hne] at hno ⊢
    rw [skips_append, List.append_nil]
    exact ⟨hpre, hno⟩
  | block hopen hclose hrest => exact .block (hopen.skip hpre) hclose hrest

/-- The end is not found within the beginning, except in its last dashes. -/
theorem opening_length_le (hclose : First (closing kind) (opening kind ++ body) before rest) :
    (opening kind).length ≤ (before ++ closing kind).length := by
  have hsplit := hclose.split
  have hbefore : 2 ≤ before.length := by
    rcases before with _ | ⟨c, _ | ⟨c', before⟩⟩
    · simp [opening, closing, dashes] at hsplit
    · simp [opening, closing, dashes] at hsplit
    · simp
  simp only [opening, closing, List.length_append]
  simp
  omega

/-- A block begins with its first marker and ends with the other one, which is nowhere else in it. -/
structure IsBlock (kind block : List Char) : Prop where
  start : opening kind <+: block
  stop : ∃ before, block = before ++ closing kind ∧ First (closing kind) block before []

theorem isBlock_of_first (hclose : First (closing kind) (opening kind ++ body) before rest) :
    IsBlock kind (before ++ closing kind) where
  start := hclose.start_within (List.prefix_append _ _) (opening_length_le hclose)
  stop := by
    have hstop := hclose.replace []
    rw [List.append_nil] at hstop
    exact ⟨before, rfl, hstop⟩

theorem Extracts.isBlock (h : Extracts (opening kind) (closing kind) text blocks) :
    ∀ block ∈ blocks, IsBlock kind block := by
  induction h with
  | done _ => simp
  | block _ hclose _ ih => exact List.forall_mem_cons.2 ⟨isBlock_of_first hclose, ih⟩

/-- **From lines of blocks, the same blocks are taken out again.** -/
theorem extracts_lines : ∀ {blocks : List (List Char)}, (∀ block ∈ blocks, IsBlock kind block) →
    Extracts (opening kind) (closing kind) (lines blocks) blocks
  | [], _ => .done (by simp [lines, opening, dashes])
  | block :: blocks, h => by
    obtain ⟨hblock, hblocks⟩ := List.forall_mem_cons.1 h
    obtain ⟨⟨body, hbody⟩, before, rfl, hstop⟩ := hblock
    have hlines : lines ((before ++ closing kind) :: blocks) =
        opening kind ++ (body ++ '\n' :: lines blocks) := by
      rw [← List.append_assoc, hbody]
      simp [lines]
    have hopen : First (opening kind) (lines ((before ++ closing kind) :: blocks)) []
        (body ++ '\n' :: lines blocks) := by
      rw [hlines]
      exact skips_nil.first
    have hclose : First (closing kind) (opening kind ++ (body ++ '\n' :: lines blocks)) before
        ('\n' :: lines blocks) := by
      rw [← List.append_assoc, hbody]
      exact hstop.replace _
    refine .block hopen hclose ?_
    have hnewline : Skips (opening kind) ['\n'] (lines blocks) := skips_of_ne (by simp)
    exact (extracts_lines hblocks).skip hnewline

end Output

theorem pemBlocks_idem {text kind out : String} (h : pemBlocks text kind = .ok out) :
    pemBlocks out kind = .ok out := by
  rcases pemBlocks_cases text kind with ⟨blocks, hne, hblocks, hok⟩ | ⟨-, herror⟩
  · rw [h] at hok
    cases hok
    have hagain := extracts_lines hblocks.isBlock
    refine pemBlocks_of_extracts ?_ hne
    rwa [String.toList_ofList]
  · rw [h] at herror
    cases herror

/-! ## Bytes -/

theorem fromUTF8?_toUTF8 (text : String) : String.fromUTF8? text.toUTF8 = some text := by
  have hvalid : text.toUTF8.IsValidUTF8 := text.isValidUTF8
  rw [String.fromUTF8?, dif_pos hvalid]
  rfl

theorem fromUTF8?_eq_none {bytes : ByteArray} (h : String.fromUTF8? bytes = none) :
    ¬ bytes.IsValidUTF8 := by
  intro hvalid
  rw [String.fromUTF8?, dif_pos hvalid] at h
  cases h

theorem toUTF8_of_fromUTF8? {bytes : ByteArray} {text : String}
    (h : String.fromUTF8? bytes = some text) : text.toUTF8 = bytes := by
  rw [String.fromUTF8?] at h
  split at h
  · cases h
    rfl
  · cases h

theorem pemBlocksOf_toUTF8 (text kind : String) :
    pemBlocksOf text.toUTF8 kind = (pemBlocks text kind).map String.toUTF8 := by
  rw [pemBlocksOf, fromUTF8?_toUTF8]

theorem pemBlocksOf_error_iff (bytes : ByteArray) (kind : String) :
    (∃ e, pemBlocksOf bytes kind = .error e) ↔ ¬ bytes.IsValidUTF8 ∨
      ∃ text : String, text.toUTF8 = bytes ∧ (¬ opening kind.toList <:+: text.toList ∨
        Unclosed (opening kind.toList) (closing kind.toList) text.toList) := by
  cases htext : String.fromUTF8? bytes with
  | none =>
    rw [pemBlocksOf, htext]
    exact ⟨fun _ => .inl (fromUTF8?_eq_none htext), fun _ => ⟨_, rfl⟩⟩
  | some text =>
    obtain rfl := toUTF8_of_fromUTF8? htext
    rw [pemBlocksOf_toUTF8]
    constructor
    · rintro ⟨e, he⟩
      refine .inr ⟨text, rfl, ?_⟩
      rcases pemBlocks_cases text kind with ⟨_, _, _, hok⟩ | ⟨h, _⟩
      · rw [hok] at he
        cases he
      · exact h
    · rintro (hinvalid | ⟨text', heq, h⟩)
      · exact absurd text.isValidUTF8 hinvalid
      · obtain rfl : text' = text := String.toByteArray_inj.1 heq
        rw [(pemBlocks_error_iff text' kind).2 h]
        exact ⟨_, rfl⟩

theorem pemBlocksOf_idem (bytes : ByteArray) (kind : String) :
    (pemBlocksOf bytes kind >>= fun out => pemBlocksOf out kind) = pemBlocksOf bytes kind := by
  cases htext : String.fromUTF8? bytes with
  | none =>
    rw [pemBlocksOf, htext]
    rfl
  | some text =>
    obtain rfl := toUTF8_of_fromUTF8? htext
    rw [pemBlocksOf_toUTF8]
    cases hout : pemBlocks text kind with
    | error e => rfl
    | ok out =>
      show pemBlocksOf out.toUTF8 kind = .ok out.toUTF8
      rw [pemBlocksOf_toUTF8, pemBlocks_idem hout]
      rfl

/-! ## Documents -/

/-- A kind of block: no dashes and no newlines. -/
structure Label where
  text : String
  plain : ∀ c ∈ text.toList, c ≠ '-' ∧ c ≠ '\n'

/-- What a block contains, on lines of its own. -/
structure Body where
  text : String
  first : text.toList.head? = some '\n'
  last : text.toList.getLast? = some '\n'
  free : ¬ dashes <:+: text.toList

/-- Text that is not in a block: nothing, or on lines of its own. -/
structure Gap where
  text : String
  framed : text = "" ∨ text.toList.head? = some '\n' ∧ text.toList.getLast? = some '\n'
  free : ¬ dashes <:+: text.toList

/-- A PEM block. -/
structure Block where
  kind : Label
  body : Body

def Block.text (block : Block) : String :=
  "-----BEGIN " ++ block.kind.text ++ "-----" ++ block.body.text ++
    ("-----END " ++ block.kind.text ++ "-----")

/-- Blocks, with the text behind each of them. -/
def chain : List (Block × Gap) → String
  | [] => ""
  | (block, gap) :: rest => block.text ++ (gap.text ++ chain rest)

/-- A sequence of blocks, with text before, between and after them. -/
structure Document where
  lead : Gap
  blocks : List (Block × Gap)

def Document.text (doc : Document) : String := doc.lead.text ++ chain doc.blocks

/-- The blocks of a kind, in order. -/
def ofKind (kind : Label) (blocks : List (Block × Gap)) : List Block :=
  (blocks.map Prod.fst).filter fun block => block.kind.text = kind.text

/-- Blocks that are each followed by a newline. -/
def blockLines : List Block → String
  | [] => ""
  | block :: blocks => block.text ++ "\n" ++ blockLines blocks

/-! ### Where markers are not -/

section Markers

variable {x post pre : List Char}

/-- Text without five dashes in a row does not begin a marker, if its last character is no dash. -/
theorem skips_free (hlast : pre.getLast? ≠ some '-') (hfree : ¬ dashes <:+: pre) :
    Skips (dashes ++ x) pre post := by
  rintro a b rfl hb hpart
  have hdashes : dashes <+: b ++ post := (List.prefix_append _ _).trans hpart
  rcases Nat.lt_or_ge b.length dashes.length with hshort | hlong
  · -- the rest of the text would consist of dashes
    have hb' : b <+: dashes :=
      List.prefix_of_prefix_length_le (List.prefix_append b post) hdashes hshort.le
    refine hlast ?_
    rw [List.getLast?_append_of_ne_nil _ hb, List.getLast?_eq_some_getLast hb]
    have hmem : b.getLast hb ∈ dashes := hb'.subset (List.getLast_mem hb)
    simpa [dashes] using hmem
  · refine hfree ?_
    have hb' : dashes <+: b :=
      List.prefix_of_prefix_length_le hdashes (List.prefix_append b post) hlong
    exact hb'.isInfix.trans (List.suffix_append a b).isInfix

/-- Five dashes begin a marker only if its word follows. -/
theorem skips_dashes {c : Char} {word : List Char} (hpost : post.head? ≠ some '-')
    (hword : ¬ c :: word <+: post) : Skips (dashes ++ c :: word) dashes post := by
  cases post with
  | nil => simp [dashes, skips_cons, skips_nil]
  | cons d post =>
    have hd : '-' ≠ d := fun h => hpost (by rw [← h]; rfl)
    simpa [dashes, skips_cons, skips_nil, hd] using hword

/-- Nor do the first five of ten dashes. -/
theorem skips_dashes_dashes {c : Char} {word : List Char} (hc : c ≠ '-') (h : dashes <+: post) :
    Skips (dashes ++ c :: word) dashes post := by
  obtain ⟨rest, rfl⟩ := h
  simp [dashes, skips_cons, skips_nil, hc]

theorem skips_label (h : ∀ c ∈ pre, c ≠ '-') : Skips (dashes ++ x) pre post := skips_of_ne h

/-- What can be behind a block: nothing, a line, or another block. -/
def Boundary (post : List Char) : Prop :=
  post = [] ∨ post.head? = some '\n' ∨ dashes <+: post

theorem skips_last_dashes {c : Char} {word : List Char} (hc : c ≠ '-') (hnewline : c ≠ '\n')
    (hpost : Boundary post) : Skips (dashes ++ c :: word) dashes post := by
  rcases hpost with rfl | hline | hblock
  · exact skips_dashes (by simp) (by simp)
  · obtain ⟨rest, rfl⟩ := List.head?_eq_some_iff.1 hline
    exact skips_dashes (by simp) (by simp [hnewline])
  · exact skips_dashes_dashes hc hblock

end Markers

/-- A label ends where the dashes begin. -/
theorem eq_of_marker : ∀ {a b rest : List Char}, (∀ c ∈ a, c ≠ '-') → (∀ c ∈ b, c ≠ '-') →
    a ++ dashes <+: b ++ (dashes ++ rest) → a = b
  | [], [], _, _, _, _ => rfl
  | [], c :: b, _, _, hb, h => by
    rw [List.nil_append, dashes, List.cons_append, List.cons_prefix_cons] at h
    exact absurd h.1.symm (hb c (by simp))
  | c :: a, [], _, ha, _, h => by
    rw [List.nil_append, dashes, List.cons_append, List.cons_append, List.cons_prefix_cons] at h
    exact absurd h.1 (ha c (by simp))
  | c :: a, c' :: b, _, ha, hb, h => by
    rw [List.cons_append, List.cons_append, List.cons_prefix_cons] at h
    rw [List.forall_mem_cons] at ha hb
    rw [h.1, eq_of_marker ha.2 hb.2 h.2]

theorem Label.eq_of_marker {kind kind' : Label} {rest : List Char}
    (h : kind.text.toList ++ dashes <+: kind'.text.toList ++ (dashes ++ rest)) :
    kind.text.toList = kind'.text.toList :=
  Pem.eq_of_marker (fun c hc => (kind.plain c hc).1) (fun c hc => (kind'.plain c hc).1) h

namespace Block

variable (block : Block) {c : Char} {word post : List Char}

theorem toList_text : block.text.toList =
    opening block.kind.text.toList ++ (block.body.text.toList ++ closing block.kind.text.toList) := by
  simp [Block.text, opening, closing, dashes]

/-- Up to its last marker, a block holds no marker with another word. -/
theorem skips_start (hnewline : c ≠ '\n')
    (hword : ¬ c :: word <+: "BEGIN ".toList ++ (block.kind.text.toList ++ (dashes ++
      (block.body.text.toList ++ post)))) :
    Skips (dashes ++ c :: word) (opening block.kind.text.toList ++ block.body.text.toList) post := by
  have hbody : block.body.text.toList.getLast? ≠ some '-' := by simp [block.body.last]
  simp only [opening, List.append_assoc, skips_append]
  refine ⟨?_, ?_, ?_, ?_, ?_⟩
  · exact skips_dashes (by simp) hword
  · exact skips_label (by simp)
  · exact skips_label fun c hc => (block.kind.plain c hc).1
  · obtain ⟨rest, hrest⟩ := List.head?_eq_some_iff.1 block.body.first
    rw [hrest]
    exact skips_dashes (by simp) (by simp [hnewline])
  · exact skips_free hbody block.body.free

/-- Nor does its last marker begin another one. -/
theorem skips_stop (hc : c ≠ '-') (hnewline : c ≠ '\n') (hpost : Boundary post)
    (hword : c ≠ 'E') :
    Skips (dashes ++ c :: word) (closing block.kind.text.toList) post := by
  simp only [closing, List.append_assoc, skips_append]
  refine ⟨?_, ?_, ?_, ?_⟩
  · exact skips_dashes (by simp) (by simp [hword])
  · exact skips_label (by simp)
  · exact skips_label fun c hc => (block.kind.plain c hc).1
  · exact skips_last_dashes hc hnewline hpost

/-- A block of another kind is passed over. -/
theorem skips_other (kind : Label) (hkind : block.kind.text ≠ kind.text) (hpost : Boundary post) :
    Skips (opening kind.text.toList) block.text.toList post := by
  rw [toList_text, ← List.append_assoc, skips_append]
  constructor
  · have hword : ¬ 'B' :: ("EGIN ".toList ++ (kind.text.toList ++ dashes)) <+:
        "BEGIN ".toList ++ (block.kind.text.toList ++ (dashes ++
          (block.body.text.toList ++ (closing block.kind.text.toList ++ post)))) := by
      intro h
      have hlabel := (List.prefix_append_right_inj "BEGIN ".toList).1 h
      exact hkind (String.toList_inj.1 (Label.eq_of_marker hlabel).symm)
    exact block.skips_start (by decide) hword
  · exact block.skips_stop (by decide) (by decide) hpost (by decide)

/-- The end of a block of the kind is its own. -/
theorem first_closing (post : List Char) :
    First (closing block.kind.text.toList)
      (opening block.kind.text.toList ++
        (block.body.text.toList ++ (closing block.kind.text.toList ++ post)))
      (opening block.kind.text.toList ++ block.body.text.toList) post := by
  have hword : ¬ 'E' :: ("ND ".toList ++ (block.kind.text.toList ++ dashes)) <+:
      "BEGIN ".toList ++ (block.kind.text.toList ++ (dashes ++
        (block.body.text.toList ++ (closing block.kind.text.toList ++ post)))) := by
    simp
  have hskips : Skips (closing block.kind.text.toList)
      (opening block.kind.text.toList ++ block.body.text.toList)
      (closing block.kind.text.toList ++ post) :=
    block.skips_start (by decide) hword
  have hfirst := hskips.first
  rwa [List.append_assoc, List.append_assoc] at hfirst

/-- A block of the kind is taken out. -/
theorem extracts {blocks : List (List Char)} (h : Extracts (opening block.kind.text.toList)
    (closing block.kind.text.toList) post blocks) :
    Extracts (opening block.kind.text.toList) (closing block.kind.text.toList)
      (block.text.toList ++ post) (block.text.toList :: blocks) := by
  have hopen : First (opening block.kind.text.toList)
      (opening block.kind.text.toList ++
        (block.body.text.toList ++ (closing block.kind.text.toList ++ post))) []
      (block.body.text.toList ++ (closing block.kind.text.toList ++ post)) :=
    skips_nil.first
  have hblock := Extracts.block hopen (block.first_closing post) h
  rw [toList_text]
  simpa only [List.append_assoc] using hblock

end Block

/-! ### What is taken out of a document -/

theorem Gap.skips (gap : Gap) (x post : List Char) : Skips (dashes ++ x) gap.text.toList post := by
  refine skips_free ?_ gap.free
  rcases gap.framed with hempty | ⟨-, hlast⟩
  · simp [hempty]
  · simp [hlast]

theorem boundary_chain (gap : Gap) (rest : List (Block × Gap)) :
    Boundary (gap.text.toList ++ (chain rest).toList) := by
  rcases gap.framed with hempty | ⟨hfirst, -⟩
  · rw [hempty]
    cases rest with
    | nil => exact .inl rfl
    | cons next rest =>
      refine .inr (.inr ?_)
      simp [chain, Block.toList_text, opening]
  · refine .inr (.inl ?_)
    rw [List.head?_append, hfirst]
    rfl

/-- **The blocks of the kind are taken out of a document**, and no others. -/
theorem extracts_chain (kind : Label) : ∀ (blocks : List (Block × Gap)),
    Extracts (opening kind.text.toList) (closing kind.text.toList) (chain blocks).toList
      ((ofKind kind blocks).map fun block => block.text.toList)
  | [] => .done (by simp [chain, opening, dashes])
  | (block, gap) :: rest => by
    have hrest := (extracts_chain kind rest).skip (gap.skips _ _)
    have htext : (chain ((block, gap) :: rest)).toList =
        block.text.toList ++ (gap.text.toList ++ (chain rest).toList) := by
      simp [chain]
    rw [htext]
    by_cases hkind : block.kind.text = kind.text
    · have hblocks : ofKind kind ((block, gap) :: rest) = block :: ofKind kind rest := by
        simp [ofKind, hkind]
      rw [hblocks, List.map_cons, ← hkind]
      rw [← hkind] at hrest
      exact block.extracts hrest
    · have hblocks : ofKind kind ((block, gap) :: rest) = ofKind kind rest := by
        simp [ofKind, hkind]
      rw [hblocks]
      exact hrest.skip (block.skips_other kind hkind (boundary_chain gap rest))

theorem lines_text : ∀ (blocks : List Block),
    lines (blocks.map fun block => block.text.toList) = (blockLines blocks).toList
  | [] => by simp [lines, blockLines]
  | block :: blocks => by
    have hblocks := lines_text blocks
    simp only [lines] at hblocks
    simp [lines, blockLines, hblocks]

theorem pemBlocks_document (doc : Document) (kind : Label) :
    pemBlocks doc.text kind.text =
      if (ofKind kind doc.blocks).isEmpty then .error (invalid kind.text)
      else .ok (blockLines (ofKind kind doc.blocks)) := by
  have hdoc : Extracts (opening kind.text.toList) (closing kind.text.toList) doc.text.toList
      ((ofKind kind doc.blocks).map fun block => block.text.toList) := by
    rw [Document.text, String.toList_append]
    exact (extracts_chain kind doc.blocks).skip (doc.lead.skips _ _)
  cases hblocks : ofKind kind doc.blocks with
  | nil =>
    rw [hblocks] at hdoc
    cases hdoc with
    | done hno => exact pemBlocks_of_not_occurs hno
  | cons block blocks =>
    rw [hblocks] at hdoc
    rw [pemBlocks_of_extracts hdoc (by simp), lines_text, String.ofList_toList]
    rfl

theorem pemBlocksOf_document (doc : Document) (kind : Label) :
    pemBlocksOf doc.text.toUTF8 kind.text =
      if (ofKind kind doc.blocks).isEmpty then .error (invalid kind.text)
      else .ok (blockLines (ofKind kind doc.blocks)).toUTF8 := by
  rw [pemBlocksOf_toUTF8, pemBlocks_document]
  split <;> rfl

/-- The kind of a certificate. -/
def certificate : Label := ⟨"CERTIFICATE", by simp⟩

/-- The kind of a key. -/
def privateKey : Label := ⟨"PRIVATE KEY", by simp⟩

/-- From a file with certificates and keys in any order, `identity` takes the one and the other. -/
theorem identity_of_document {Certificate Identity Connector : Type}
    (tls : NativeTls Certificate Identity Connector) (platform : Platform) {path : String}
    (doc : Document) (hfile : platform.readFile path = .ok doc.text)
    (hcerts : ofKind certificate doc.blocks ≠ []) (hkeys : ofKind privateKey doc.blocks ≠ []) :
    identity tls platform path path =
      tls.identityFromPkcs8 (blockLines (ofKind certificate doc.blocks))
        (blockLines (ofKind privateKey doc.blocks)) := by
  have hcert : pemBlocks doc.text "CERTIFICATE" =
      .ok (blockLines (ofKind certificate doc.blocks)) := by
    rw [show "CERTIFICATE" = certificate.text from rfl, pemBlocks_document, if_neg]
    simpa using hcerts
  have hkey : pemBlocks doc.text "PRIVATE KEY" =
      .ok (blockLines (ofKind privateKey doc.blocks)) := by
    rw [show "PRIVATE KEY" = privateKey.text from rfl, pemBlocks_document, if_neg]
    simpa using hkeys
  rw [identity, hfile]
  show (pemBlocks doc.text "CERTIFICATE" >>= _) = _
  rw [hcert]
  show ((pemBlocks doc.text "PRIVATE KEY").mapError _ >>= _) = _
  rw [hkey]
  rfl

/-- **PEM extraction.**  From a document, `pem_blocks` returns the blocks of the kind, in order and
each with one newline behind it, and an error if there are none.  On any bytes, its loop ends; it
returns an error exactly if the bytes are not UTF-8, if the text has no beginning of a block of the
kind, or if, after some blocks, there is a beginning without an end behind it; and what it returns it
returns again from its own output. -/
theorem pem_extraction :
    (∀ (doc : Document) (kind : Label), pemBlocksOf doc.text.toUTF8 kind.text =
      if (ofKind kind doc.blocks).isEmpty then .error (invalid kind.text)
      else .ok (blockLines (ofKind kind doc.blocks)).toUTF8) ∧
    ∀ (bytes : ByteArray) (kind : String),
      (∀ text : String, text.toUTF8 = bytes → ∃ outcome,
        loop (opening kind.toList) (closing kind.toList) (text.toList.length + 1) text.toList [] =
            some outcome ∧
          pemBlocksOf bytes kind = (afterLoop kind outcome).map String.toUTF8) ∧
      ((∃ e, pemBlocksOf bytes kind = .error e) ↔ ¬ bytes.IsValidUTF8 ∨
        ∃ text : String, text.toUTF8 = bytes ∧
          (¬ opening kind.toList <:+: text.toList ∨
            Unclosed (opening kind.toList) (closing kind.toList) text.toList)) ∧
      (pemBlocksOf bytes kind >>= fun out => pemBlocksOf out kind) = pemBlocksOf bytes kind := by
  refine ⟨pemBlocksOf_document, fun bytes kind => ⟨?_, pemBlocksOf_error_iff bytes kind,
    pemBlocksOf_idem bytes kind⟩⟩
  rintro text rfl
  refine ⟨_, loop_eq (closing_ne_nil _) _ _ _ (Nat.lt_succ_self _), ?_⟩
  rw [pemBlocksOf_toUTF8, pemBlocks_eq]
  simp

end Pem
end Mqtt
end SystemReport

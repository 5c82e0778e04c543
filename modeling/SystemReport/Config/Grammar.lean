import SystemReport.Config.Template

/-!
# The template language

A template is a sequence of pieces: plain characters, doubled braces and placeholders.
`format_template` reads exactly this language (`formatChars_eq_ok`), every template of it in one way
(`spelling_injective`), and what it returns is the pieces' meanings one after the other.

No piece's spelling begins another's, so reading from left to right needs no look-ahead beyond the
one character that tells a doubled brace from a placeholder.
-/

set_option autoImplicit false

namespace SystemReport
namespace Config

/-! ## Pieces -/

/-- A piece of a template. -/
inductive Piece
  | literal (c : Char) (plain : c ≠ '\x7b' ∧ c ≠ '\x7d')
  | opening
  | closing
  | hostname
  | pre
  | name
deriving DecidableEq

namespace Piece

/-- The text between the braces of a placeholder. -/
def field : Piece → Option (List Char)
  | .hostname => some "hostname".toList
  | .pre => some "prefix".toList
  | .name => some "name".toList
  | _ => none

/-- How a piece is written in a template. -/
def spelling : Piece → List Char
  | .literal c _ => [c]
  | .opening => ['\x7b', '\x7b']
  | .closing => ['\x7d', '\x7d']
  | .hostname => "\x7bhostname\x7d".toList
  | .pre => "\x7bprefix\x7d".toList
  | .name => "\x7bname\x7d".toList

/-- What a piece puts into the result. -/
def meaning (hostname pre : String) (name : Option String) : Piece → List Char
  | .literal c _ => [c]
  | .opening => ['\x7b']
  | .closing => ['\x7d']
  | .hostname => hostname.toList
  | .pre => pre.toList
  | .name => (name.getD "").toList

/-- The pieces that a template may have: `{name}` only where there is a name. -/
def Allowed (name : Option String) (p : Piece) : Prop := p = .name → name.isSome

instance (name : Option String) (p : Piece) : Decidable (p.Allowed name) :=
  inferInstanceAs (Decidable (_ → _))

/-- The piece that stands for a character. -/
def quote (c : Char) : Piece :=
  if h : c = '\x7b' then .opening
  else if h' : c = '\x7d' then .closing
  else .literal c ⟨h, h'⟩

end Piece

/-- The template that consists of some pieces. -/
def spelling (ps : List Piece) : List Char := ps.flatMap Piece.spelling

/-- What it is formatted to. -/
def meaning (hostname pre : String) (name : Option String) (ps : List Piece) : List Char :=
  ps.flatMap (Piece.meaning hostname pre name)

/-- A text with all its braces doubled. -/
def doubleBraces (s : String) : String :=
  .ofList (s.toList.flatMap fun c => if c = '\x7b' ∨ c = '\x7d' then [c, c] else [c])

@[simp] theorem spelling_nil : spelling [] = [] := rfl

@[simp] theorem spelling_cons (p : Piece) (ps : List Piece) :
    spelling (p :: ps) = p.spelling ++ spelling ps := List.flatMap_cons

@[simp] theorem spelling_append (ps qs : List Piece) :
    spelling (ps ++ qs) = spelling ps ++ spelling qs := List.flatMap_append

@[simp] theorem meaning_nil (hostname pre : String) (name : Option String) :
    meaning hostname pre name [] = [] := rfl

@[simp] theorem meaning_cons (hostname pre : String) (name : Option String) (p : Piece)
    (ps : List Piece) : meaning hostname pre name (p :: ps) =
      p.meaning hostname pre name ++ meaning hostname pre name ps := List.flatMap_cons

@[simp] theorem meaning_append (hostname pre : String) (name : Option String)
    (ps qs : List Piece) : meaning hostname pre name (ps ++ qs) =
      meaning hostname pre name ps ++ meaning hostname pre name qs := List.flatMap_append

/-! ## Placeholders -/

variable {key hostname pre : String} {name : Option String}

/-- A placeholder expands exactly if it is one of the three, and allowed. -/
theorem expand_eq_ok {field value : String} :
    expand key hostname pre name field = .ok value ↔
      ∃ p : Piece, p.Allowed name ∧ p.field = some field.toList ∧
        p.meaning hostname pre name = value.toList := by
  constructor
  · intro h
    rw [expand] at h
    split_ifs at h with hhost hpre hname
    · cases h
      exact ⟨.hostname, by simp [Piece.Allowed], by rw [hhost, Piece.field], rfl⟩
    · cases h
      exact ⟨.pre, by simp [Piece.Allowed], by rw [hpre, Piece.field], rfl⟩
    · cases name with
      | none => cases h
      | some n =>
        cases h
        exact ⟨.name, by simp [Piece.Allowed], by rw [hname, Piece.field], rfl⟩
  · rintro ⟨p, hallowed, hfield, hmeaning⟩
    cases p with
    | literal | opening | closing => simp [Piece.field] at hfield
    | hostname =>
      obtain rfl := String.toList_inj.1 (Option.some.inj hfield)
      rw [expand, if_pos rfl, String.toList_inj.1 hmeaning]
    | pre =>
      obtain rfl := String.toList_inj.1 (Option.some.inj hfield)
      rw [expand, if_neg (by decide), if_pos rfl, String.toList_inj.1 hmeaning]
    | name =>
      obtain rfl := String.toList_inj.1 (Option.some.inj hfield)
      obtain ⟨n, rfl⟩ := Option.isSome_iff_exists.1 (hallowed rfl)
      rw [expand, if_neg (by decide), if_neg (by decide), if_pos rfl,
        ← String.toList_inj.1 hmeaning]
      rfl

/-- The text of a placeholder stands between braces and has none inside. -/
theorem Piece.spelling_of_field {p : Piece} {field : List Char} (h : p.field = some field) :
    p.spelling = '\x7b' :: field ++ ['\x7d'] ∧ '\x7d' ∉ field ∧ field.head? ≠ some '\x7b' := by
  cases p with
  | literal | opening | closing => simp [Piece.field] at h
  | hostname | pre | name =>
    obtain rfl := Option.some.inj h
    decide

/-! ## What the loops do on a piece -/

/-- The inner loop reads up to the first closing brace. -/
theorem formatChars_field {tail : List Char} (rest : List Char) (h : '\x7d' ∉ tail)
    (field : List Char) :
    formatChars key hostname pre name (some field) (tail ++ '\x7d' :: rest) =
      (expand key hostname pre name (.ofList (field ++ tail))).bind fun value =>
        (formatChars key hostname pre name none rest).bind fun result =>
          .ok (value.toList ++ result) := by
  induction tail generalizing field with
  | nil =>
    rw [List.append_nil]
    rfl
  | cons c tail ih =>
    rw [List.mem_cons, not_or] at h
    rw [List.cons_append, formatChars, ih h.2, List.append_assoc, List.singleton_append]
    exact fun hc => h.1 hc.symm

theorem formatChars_literal {c : Char} (h : c ≠ '\x7b' ∧ c ≠ '\x7d') (rest : List Char) :
    formatChars key hostname pre name none (c :: rest) =
      (formatChars key hostname pre name none rest).bind fun result => .ok (c :: result) := by
  rw [formatChars]
  · rfl
  all_goals intros; simp_all

/-- A single opening brace starts a placeholder. -/
theorem formatChars_brace {rest : List Char} (h : rest.head? ≠ some '\x7b') :
    formatChars key hostname pre name none ('\x7b' :: rest) =
      formatChars key hostname pre name (some []) rest := by
  rw [formatChars]
  rintro rest' rfl
  exact h rfl

/-- Reading a piece appends its meaning, whatever follows. -/
theorem formatChars_piece {p : Piece} (h : p.Allowed name) (rest : List Char) :
    formatChars key hostname pre name none (p.spelling ++ rest) =
      (formatChars key hostname pre name none rest).bind fun result =>
        .ok (p.meaning hostname pre name ++ result) := by
  cases hfield : p.field with
  | none =>
    cases p with
    | literal c plain => exact formatChars_literal plain rest
    | opening | closing => rfl
    | hostname | pre | name => simp [Piece.field] at hfield
  | some field =>
    obtain ⟨hspelling, hclose, hopen⟩ := Piece.spelling_of_field hfield
    have hexpand : expand key hostname pre name (.ofList field) =
        .ok (.ofList (p.meaning hostname pre name)) :=
      expand_eq_ok.2 ⟨p, h, by rw [String.toList_ofList, hfield], by rw [String.toList_ofList]⟩
    have hhead : (field ++ '\x7d' :: rest).head? ≠ some '\x7b' := by
      cases field with
      | nil => simp
      | cons c cs => simpa using hopen
    rw [hspelling, List.cons_append, List.cons_append, List.append_assoc, List.singleton_append,
      formatChars_brace hhead, formatChars_field rest hclose, List.nil_append,
      hexpand]
    simp only [Outcome.bind, String.toList_ofList]

/-- **A sequence of pieces is formatted to its meaning.** -/
theorem formatChars_spelling {ps : List Piece} (h : ∀ p ∈ ps, p.Allowed name) :
    formatChars key hostname pre name none (spelling ps) = .ok (meaning hostname pre name ps) := by
  induction ps with
  | nil => rfl
  | cons p ps ih =>
    rw [List.forall_mem_cons] at h
    rw [spelling_cons, formatChars_piece h.1, ih h.2, meaning_cons]
    rfl

/-! ## Nothing else is accepted -/

/-- The inner loop needs a closing brace. -/
theorem mem_of_formatChars_field {field cs result : List Char}
    (h : formatChars key hostname pre name (some field) cs = .ok result) :
    ∃ tail rest, cs = tail ++ '\x7d' :: rest ∧ '\x7d' ∉ tail := by
  induction cs generalizing field with
  | nil => cases h
  | cons c cs ih =>
    by_cases hc : c = '\x7d'
    · exact ⟨[], cs, by rw [hc]; rfl, by simp⟩
    · rw [formatChars] at h
      swap
      · exact hc
      obtain ⟨tail, rest, rfl, htail⟩ := ih h
      exact ⟨c :: tail, rest, rfl, by simp [htail, Ne.symm hc]⟩

/-- What is accepted begins with a piece. -/
theorem piece_of_formatChars {cs result : List Char} (hne : cs ≠ [])
    (h : formatChars key hostname pre name none cs = .ok result) :
    ∃ p : Piece, ∃ rest, p.Allowed name ∧ cs = p.spelling ++ rest := by
  obtain ⟨c, cs, rfl⟩ := List.exists_cons_of_ne_nil hne
  by_cases hopen : c = '\x7b'
  · subst hopen
    by_cases hdouble : cs.head? = some '\x7b'
    · obtain ⟨rest, rfl⟩ := List.head?_eq_some_iff.1 hdouble
      exact ⟨.opening, rest, by simp [Piece.Allowed], rfl⟩
    · rw [formatChars_brace hdouble] at h
      obtain ⟨field, rest, rfl, hclose⟩ := mem_of_formatChars_field h
      rw [formatChars_field rest hclose] at h
      obtain ⟨value, hvalue, -⟩ := Outcome.bind_eq_ok.1 h
      obtain ⟨p, hallowed, hfield, -⟩ := expand_eq_ok.1 hvalue
      rw [String.toList_ofList, List.nil_append] at hfield
      refine ⟨p, rest, hallowed, ?_⟩
      rw [(Piece.spelling_of_field hfield).1]
      simp
  · by_cases hclose : c = '\x7d'
    · subst hclose
      by_cases hdouble : cs.head? = some '\x7d'
      · obtain ⟨rest, rfl⟩ := List.head?_eq_some_iff.1 hdouble
        exact ⟨.closing, rest, by simp [Piece.Allowed], rfl⟩
      · rw [formatChars] at h
        · cases h
        · rintro rest rfl
          exact hdouble rfl
    · exact ⟨.literal c ⟨hopen, hclose⟩, cs, by simp [Piece.Allowed], rfl⟩

theorem Piece.spelling_hostname :
    spelling .hostname = ['\x7b', 'h', 'o', 's', 't', 'n', 'a', 'm', 'e', '\x7d'] := by decide

theorem Piece.spelling_pre :
    spelling .pre = ['\x7b', 'p', 'r', 'e', 'f', 'i', 'x', '\x7d'] := by decide

theorem Piece.spelling_name : spelling .name = ['\x7b', 'n', 'a', 'm', 'e', '\x7d'] := by decide

theorem Piece.spelling_ne_nil (p : Piece) : p.spelling ≠ [] := by
  cases p with
  | literal | opening | closing => exact List.cons_ne_nil _ _
  | hostname | pre | name => decide

/-- **What is accepted is a sequence of pieces.** -/
theorem spelling_of_formatChars (n : ℕ) : ∀ {cs result : List Char}, cs.length ≤ n →
    formatChars key hostname pre name none cs = .ok result →
    ∃ ps : List Piece, (∀ p ∈ ps, p.Allowed name) ∧ cs = spelling ps := by
  induction n with
  | zero =>
    intro cs _ hlen _
    exact ⟨[], by simp, List.eq_nil_of_length_eq_zero (by omega)⟩
  | succ n ih =>
    intro cs result hlen h
    by_cases hne : cs = []
    · exact ⟨[], by simp, hne⟩
    · obtain ⟨p, rest, hallowed, rfl⟩ := piece_of_formatChars hne h
      rw [formatChars_piece hallowed] at h
      obtain ⟨result', hrest, -⟩ := Outcome.bind_eq_ok.1 h
      have hpos := List.length_pos_iff.2 p.spelling_ne_nil
      rw [List.length_append] at hlen
      obtain ⟨ps, hps, rfl⟩ := ih (by omega) hrest
      exact ⟨p :: ps, List.forall_mem_cons.2 ⟨hallowed, hps⟩, (spelling_cons p ps).symm⟩

theorem formatChars_eq_ok {cs result : List Char} :
    formatChars key hostname pre name none cs = .ok result ↔
      ∃ ps : List Piece, (∀ p ∈ ps, p.Allowed name) ∧ cs = spelling ps ∧
        result = meaning hostname pre name ps := by
  constructor
  · intro h
    obtain ⟨ps, hps, rfl⟩ := spelling_of_formatChars cs.length le_rfl h
    rw [formatChars_spelling hps] at h
    cases h
    exact ⟨ps, hps, rfl, rfl⟩
  · rintro ⟨ps, hps, rfl, rfl⟩
    exact formatChars_spelling hps

/-- **What `format_template` accepts**, and what it returns. -/
theorem formatTemplate_eq_ok {template result : String} :
    formatTemplate template key hostname pre name = .ok result ↔
      ∃ ps : List Piece, (∀ p ∈ ps, p.Allowed name) ∧ template.toList = spelling ps ∧
        result.toList = meaning hostname pre name ps := by
  rw [formatTemplate, Outcome.bind_eq_ok]
  constructor
  · rintro ⟨cs, h, hresult⟩
    cases hresult
    rw [String.toList_ofList]
    exact formatChars_eq_ok.1 h
  · intro h
    refine ⟨result.toList, formatChars_eq_ok.2 h, ?_⟩
    rw [String.ofList_toList]

/-! ## One reading -/

/-- Only a plain character is spelled as itself. -/
theorem Piece.eq_literal {p : Piece} {c : Char} {rest rest' : List Char}
    (plain : c ≠ '\x7b' ∧ c ≠ '\x7d') (h : c :: rest = p.spelling ++ rest') :
    p = .literal c plain := by
  cases p with
  | literal c' plain' =>
    obtain ⟨rfl, -⟩ := List.cons.inj h
    rfl
  | opening => exact absurd (List.cons.inj h).1 plain.1
  | closing => exact absurd (List.cons.inj h).1 plain.2
  | hostname =>
    rw [spelling_hostname] at h
    exact absurd (List.cons.inj h).1 plain.1
  | pre =>
    rw [spelling_pre] at h
    exact absurd (List.cons.inj h).1 plain.1
  | name =>
    rw [spelling_name] at h
    exact absurd (List.cons.inj h).1 plain.1

/-- No spelling begins another one. -/
theorem Piece.eq_of_spelling {p q : Piece} {rest rest' : List Char}
    (h : p.spelling ++ rest = q.spelling ++ rest') : p = q := by
  have hopening : spelling .opening = ['\x7b', '\x7b'] := rfl
  have hclosing : spelling .closing = ['\x7d', '\x7d'] := rfl
  cases p with
  | literal c plain => exact (eq_literal plain h).symm
  | opening | closing | hostname | pre | name =>
    cases q with
    | literal c plain => exact eq_literal plain h.symm
    | opening | closing | hostname | pre | name =>
      simp [hopening, hclosing, spelling_hostname, spelling_pre, spelling_name] at h ⊢

/-- A template is a sequence of pieces in one way. -/
theorem spelling_injective {ps qs : List Piece} (h : spelling ps = spelling qs) : ps = qs := by
  induction ps generalizing qs with
  | nil =>
    cases qs with
    | nil => rfl
    | cons q qs => simp [q.spelling_ne_nil] at h
  | cons p ps ih =>
    cases qs with
    | nil => simp [p.spelling_ne_nil] at h
    | cons q qs =>
      rw [spelling_cons, spelling_cons] at h
      obtain rfl := Piece.eq_of_spelling h
      rw [ih (List.append_cancel_left h)]

/-! ## Doubled braces -/

theorem Piece.quote_literal {c : Char} (h : c ≠ '\x7b' ∧ c ≠ '\x7d') :
    quote c = .literal c h := by
  rw [quote, dif_neg h.1, dif_neg h.2]

theorem Piece.spelling_quote (c : Char) :
    (quote c).spelling = if c = '\x7b' ∨ c = '\x7d' then [c, c] else [c] := by
  split_ifs with h
  · rcases h with rfl | rfl <;> rfl
  · have plain : c ≠ '\x7b' ∧ c ≠ '\x7d' := not_or.1 h
    rw [quote_literal plain]
    rfl

theorem Piece.meaning_quote (c : Char) : (quote c).meaning hostname pre name = [c] := by
  by_cases h : c = '\x7b' ∨ c = '\x7d'
  · rcases h with rfl | rfl <;> rfl
  · have plain : c ≠ '\x7b' ∧ c ≠ '\x7d' := not_or.1 h
    rw [quote_literal plain]
    rfl

theorem Piece.allowed_quote (c : Char) : (quote c).Allowed name := by
  rw [quote, Allowed]
  split_ifs <;> simp

theorem spelling_map_quote (cs : List Char) :
    spelling (cs.map Piece.quote) =
      cs.flatMap fun c => if c = '\x7b' ∨ c = '\x7d' then [c, c] else [c] := by
  rw [spelling, List.flatMap_map]
  simp only [Piece.spelling_quote]

theorem meaning_map_quote (cs : List Char) :
    meaning hostname pre name (cs.map Piece.quote) = cs := by
  rw [meaning, List.flatMap_map]
  simp only [Piece.meaning_quote, List.flatMap_singleton']

theorem formatTemplate_doubleBraces (s : String) :
    formatTemplate (doubleBraces s) key hostname pre name = .ok s := by
  refine formatTemplate_eq_ok.2 ⟨s.toList.map Piece.quote, ?_, ?_, ?_⟩
  · intro p hp
    obtain ⟨c, -, rfl⟩ := List.mem_map.1 hp
    exact Piece.allowed_quote c
  · rw [doubleBraces, String.toList_ofList, spelling_map_quote]
  · rw [meaning_map_quote]

/-- Templates compose. -/
theorem formatTemplate_append {t t' s s' : String}
    (h : formatTemplate t key hostname pre name = .ok s)
    (h' : formatTemplate t' key hostname pre name = .ok s') :
    formatTemplate (t ++ t') key hostname pre name = .ok (s ++ s') := by
  obtain ⟨ps, hps, ht, hs⟩ := formatTemplate_eq_ok.1 h
  obtain ⟨qs, hqs, ht', hs'⟩ := formatTemplate_eq_ok.1 h'
  refine formatTemplate_eq_ok.2 ⟨ps ++ qs, ?_, ?_, ?_⟩
  · intro p hp
    rcases List.mem_append.1 hp with hp | hp
    · exact hps p hp
    · exact hqs p hp
  · rw [String.toList_append, ht, ht', spelling_append]
  · rw [String.toList_append, hs, hs', meaning_append]

/-! ## The name in a result -/

/-- Blocks of the same lengths that are the same in a row are the same. -/
theorem eq_of_flatMap_eq {α β : Type} {f g : α → List β} {xs : List α}
    (hlen : ∀ x ∈ xs, (f x).length = (g x).length) (h : xs.flatMap f = xs.flatMap g) :
    ∀ x ∈ xs, f x = g x := by
  induction xs with
  | nil => simp
  | cons x xs ih =>
    rw [List.forall_mem_cons] at hlen ⊢
    rw [List.flatMap_cons, List.flatMap_cons] at h
    obtain ⟨hx, hxs⟩ := List.append_inj h hlen.1
    exact ⟨hx, ih hlen.2 hxs⟩

/-- Every `{name}` makes the result longer by the name. -/
theorem length_meaning (n : String) (ps : List Piece) :
    (meaning hostname pre (some n) ps).length =
      (meaning hostname pre (some "") ps).length + ps.count .name * n.toList.length := by
  induction ps with
  | nil => simp
  | cons p ps ih =>
    rw [meaning_cons, meaning_cons, List.length_append, List.length_append, ih, List.count_cons]
    by_cases hp : p = .name
    · subst hp
      simp only [Piece.meaning, Option.getD_some, String.toList_empty, List.length_nil, beq_self_eq_true,
        if_true]
      ring
    · have hsame : p.meaning hostname pre (some n) = p.meaning hostname pre (some "") := by
        cases p with
        | name => exact absurd rfl hp
        | _ => rfl
      rw [hsame, if_neg (by simpa using hp)]
      ring

/-- **A template with `{name}` in it tells the names apart.** -/
theorem name_of_meaning {ps : List Piece} {n n' : String} (hname : .name ∈ ps)
    (h : meaning hostname pre (some n) ps = meaning hostname pre (some n') ps) : n = n' := by
  have hpos : 0 < ps.count .name := List.count_pos_iff.2 hname
  have hlength := congrArg List.length h
  rw [length_meaning n, length_meaning n'] at hlength
  have hsize : n.toList.length = n'.toList.length :=
    Nat.eq_of_mul_eq_mul_left hpos (by omega)
  have hblocks : ∀ p ∈ ps, (p.meaning hostname pre (some n)).length =
      (p.meaning hostname pre (some n')).length := by
    intro p _
    cases p with
    | name => exact hsize
    | _ => rfl
  exact String.toList_inj.1 (eq_of_flatMap_eq hblocks h _ hname)

/-- Without one, the name is not in the result. -/
theorem meaning_of_not_mem {ps : List Piece} (h : .name ∉ ps) (name name' : Option String) :
    meaning hostname pre name ps = meaning hostname pre name' ps := by
  refine List.flatMap_congr fun p hp => ?_
  cases p with
  | name => exact absurd hp h
  | _ => rfl

/-- **The template language.**  `format_template` succeeds exactly on the sequences of pieces, each
of which is spelled in one way, and returns the pieces' meanings one after the other.  So doubling
the braces of a text undoes the formatting, and templates may be put together. -/
theorem formatTemplate_language (key hostname pre : String) (name : Option String) :
    (∀ template result, formatTemplate template key hostname pre name = .ok result ↔
      ∃ ps : List Piece, (∀ p ∈ ps, p.Allowed name) ∧ template.toList = spelling ps ∧
        result.toList = meaning hostname pre name ps) ∧
    (∀ ps qs : List Piece, spelling ps = spelling qs → ps = qs) ∧
    (∀ s, formatTemplate (doubleBraces s) key hostname pre name = .ok s) ∧
    (∀ t t' s s', formatTemplate t key hostname pre name = .ok s →
      formatTemplate t' key hostname pre name = .ok s' →
      formatTemplate (t ++ t') key hostname pre name = .ok (s ++ s')) :=
  ⟨fun _ _ => formatTemplate_eq_ok, fun _ _ => spelling_injective, formatTemplate_doubleBraces,
    fun _ _ _ _ => formatTemplate_append⟩

/-- Braces next to placeholders, and a value with braces in it. -/
example : formatTemplate "\x7b\x7b\x7bhostname\x7d\x7d\x7d/\x7bprefix\x7d" "key" "\x7bprefix\x7d" "p"
    none = .ok "\x7b\x7bprefix\x7d\x7d/p" := by decide

end Config
end SystemReport

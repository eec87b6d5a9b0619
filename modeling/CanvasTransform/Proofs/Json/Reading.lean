import Mathlib.Data.List.Forall2
import CanvasTransform.Proofs.Json.Scanning

set_option autoImplicit false

/-! # What is written is read

A value that can be written (`Json.Writable`) is read from its text, be it written without blanks
(`parse?_compact`) or over several lines (`parse?_pretty`).

Lexer and parser are taken together. `Reads state cs j` says that the rest of a text brings the parser
from a state to the end, with `j` as what was read. A text spells a value (`Spells`) if it takes the
parser from where a value begins to where it is complete, whatever comes after. Atoms do so because
of how they are scanned. A container does because the parser passes through its parts one by one, and
it does so alike for the elements of arrays and the members of objects (`Passage`). The two writers
differ in the blanks that they put between the parts, which change nothing (`Layout`). -/

namespace CanvasTransform.Json

/-! ## Lexing -/

/-- With fuel for every character, the text is cut into the tokens. -/
def Lexes (cs : List Char) (ts : List Token) : Prop :=
  ∀ before fuel, cs.length ≤ fuel → scanTokens before fuel cs = some (before.reverse ++ ts)

theorem lexes_nil : Lexes [] [] := fun before fuel _ => by
  rw [scanTokens, List.append_nil]

theorem Lexes.blank {c : Char} {cs : List Char} {ts : List Token} (h : Lexes cs ts)
    (hc : isBlank c = true) : Lexes (c :: cs) ts := fun before fuel hfuel => by
  cases fuel with
  | zero => exact absurd hfuel (by simp)
  | succ fuel =>
      rw [scanTokens, if_pos hc]
      exact h before fuel (Nat.le_of_succ_le_succ hfuel)

theorem Lexes.token {c : Char} {cs rest : List Char} {t : Token} {ts : List Token}
    (h : Lexes rest ts) (hscan : scanToken (c :: cs) = some (t, rest)) (hc : isBlank c = false)
    (hlen : rest.length ≤ cs.length) : Lexes (c :: cs) (t :: ts) := fun before fuel hfuel => by
  cases fuel with
  | zero => exact absurd hfuel (by simp)
  | succ fuel =>
      rw [scanTokens, if_neg (by simp [hc]), hscan]
      dsimp only
      rw [h (t :: before) fuel (hlen.trans (Nat.le_of_succ_le_succ hfuel)), List.reverse_cons,
        List.append_assoc]
      rfl

/-! ## Reading from a state -/

/-- The text brings the parser from the state to the end, with the value read. -/
def Reads (state : ParseState) (cs : List Char) (j : Json) : Prop :=
  ∃ ts, Lexes cs ts ∧ ts.foldlM ParseState.step state = some (.complete j [])

variable {state state' : ParseState} {stack : List Frame} {cs rest : List Char} {j r : Json}

theorem parse?_eq_some_of_reads {text : String} (h : Reads (.value []) text.toList j) :
    parse? text = some j := by
  obtain ⟨ts, hlex, hfold⟩ := h
  have htokens : tokens? text = some ts := hlex [] _ le_rfl
  rw [parse?, htokens, Option.bind_eq_bind, Option.bind_some, hfold]
  rfl

namespace Reads

theorem nil (j : Json) : Reads (.complete j []) [] j := ⟨[], lexes_nil, rfl⟩

/-- Blanks change nothing. -/
theorem blanks (h : Reads state rest r) (hcs : ∀ c ∈ cs, isBlank c = true) :
    Reads state (cs ++ rest) r := by
  obtain ⟨ts, hlex, hfold⟩ := h
  refine ⟨ts, ?_, hfold⟩
  induction cs with
  | nil => exact hlex
  | cons c cs ih =>
      exact (ih fun c hc => hcs c (List.mem_cons_of_mem _ hc)).blank (hcs c List.mem_cons_self)

/-- A token takes the parser one step on. -/
theorem token {c : Char} {t : Token} (h : Reads state' rest r)
    (hscan : scanToken (c :: cs) = some (t, rest)) (hc : isBlank c = false)
    (hlen : rest.length ≤ cs.length) (hstep : state.step t = some state') :
    Reads state (c :: cs) r := by
  obtain ⟨ts, hlex, hfold⟩ := h
  refine ⟨t :: ts, hlex.token hscan hc hlen, ?_⟩
  rw [List.foldlM_cons, hstep]
  exact hfold

/-- The same where the token is spelled by a text. -/
theorem spelled {text : String} {c : Char} {cs : List Char} {t : Token} (h : Reads state' rest r)
    (htext : text.toList = c :: cs) (hscan : scanToken (text.toList ++ rest) = some (t, rest))
    (hc : isBlank c = false) (hstep : state.step t = some state') :
    Reads state (text.toList ++ rest) r := by
  rw [htext, List.cons_append] at hscan ⊢
  exact h.token hscan hc (by simp) hstep

/-- Where an array has just begun, the first element may begin. -/
theorem arrayStart (h : Reads (.value (.array [] :: stack)) cs r) :
    Reads (.arrayStart stack) cs r := by
  obtain ⟨ts, hlex, hfold⟩ := h
  refine ⟨ts, hlex, ?_⟩
  cases ts with
  | nil => exact nomatch hfold
  | cons t ts => cases t <;> first | exact hfold | exact nomatch hfold

/-- Where an object has just begun, the first key may begin. -/
theorem objectStart (h : Reads (.key [] stack) cs r) : Reads (.objectStart stack) cs r := by
  obtain ⟨ts, hlex, hfold⟩ := h
  refine ⟨ts, hlex, ?_⟩
  cases ts with
  | nil => exact nomatch hfold
  | cons t ts =>
      cases t with
      | atom value => cases value <;> exact hfold
      | _ => exact nomatch hfold

end Reads

/-! ## Values without parts -/

/-- The text takes the parser from where a value begins to where the value is complete, when no number
    goes on with what follows. -/
def Spells (text : String) (j : Json) : Prop :=
  ∀ stack rest r, Ends rest → Reads (.complete j stack) rest r →
    Reads (.value stack) (text.toList ++ rest) r

/-- An atom that is scanned as what it is. -/
theorem spells_atom {text : String} {c : Char} {cs : List Char} (htext : text.toList = c :: cs)
    (hc : isBlank c = false) (hscan : ∀ {rest}, Ends rest →
      scanToken (text.toList ++ rest) = some (.atom j, rest)) : Spells text j := by
  intro stack rest r hends h
  exact h.spelled htext (hscan hends) hc rfl

theorem spells_null : Spells "null" .null := spells_atom rfl rfl fun _ => rfl

theorem spells_bool (b : Bool) : Spells (if b then "true" else "false") (.bool b) := by
  cases b <;> exact spells_atom rfl rfl fun _ => rfl

theorem spells_number {n : Numeral} (h : n.Proper) : Spells n.toText (.number n) := by
  obtain ⟨c, cs, htext, hc⟩ := toText_eq_cons h
  refine spells_atom htext ?_ (scanToken_toText h)
  rcases hc with rfl | hc
  · rfl
  · cases hblank : isBlank c with
    | false => rfl
    | true =>
        simp only [isBlank, Bool.or_eq_true, beq_iff_eq] at hblank
        rcases hblank with ((rfl | rfl) | rfl) | rfl <;> exact nomatch hc

theorem toList_quoted (s : String) :
    (quoted s).toList = '"' :: (s.toList.flatMap escape ++ ['"']) := by
  simp [quoted]

theorem spells_text (s : String) : Spells (quoted s) (.text s) :=
  spells_atom (toList_quoted s) rfl fun _ => scanToken_quoted s _

/-! ## Containers -/

/-- How the parser passes through the parts of a container. Parts that it has passed are given last
    first. -/
structure Passage (π : Type) where
  /-- A part may begin. -/
  start : List π → ParseState
  /-- A part is complete. -/
  done : List π → π → ParseState
  /-- The container is complete. -/
  whole : List π → ParseState
  bracket : Char
  closing : Token
  scanToken_bracket : ∀ rest, scanToken (bracket :: rest) = some (closing, rest)
  bracket_eq : bracket = ']' ∨ bracket = '\x7d'
  step_comma : ∀ before part, (done before part).step .comma = some (start (part :: before))
  step_closing : ∀ before part,
    (done before part).step closing = some (whole (before.reverse ++ [part]))

namespace Passage

/-- Through the elements of an array. -/
def elements (stack : List Frame) : Passage Json where
  start before := .value (.array before :: stack)
  done before j := .complete j (.array before :: stack)
  whole elements := .complete (.array elements) stack
  bracket := ']'
  closing := .endArray
  scanToken_bracket _ := rfl
  bracket_eq := Or.inl rfl
  step_comma _ _ := rfl
  step_closing before j := by rw [ParseState.step, List.reverse_cons]

/-- Through the members of an object. -/
def members (stack : List Frame) : Passage (Option String × Json) where
  start before := .key before stack
  done before member := .complete member.2 (.object before member.1 :: stack)
  whole members := .complete (.object members) stack
  bracket := '\x7d'
  closing := .endObject
  scanToken_bracket _ := rfl
  bracket_eq := Or.inr rfl
  step_comma _ _ := rfl
  step_closing before member := by rw [ParseState.step, List.reverse_cons]

variable {π : Type} (p : Passage π)

/-- The text takes the parser from where a part begins to where it is complete. -/
def Takes (text : String) (part : π) : Prop :=
  ∀ before rest r, Ends rest → Reads (p.done before part) rest r →
    Reads (p.start before) (text.toList ++ rest) r

theorem takes_element {text : String} (h : Spells text j) (stack : List Frame) :
    (elements stack).Takes text j := fun _ => h _

/-- Whatever blanks stand before the closing bracket, no number goes on with them. -/
theorem ends_bracket {blanks : List Char} (hblanks : ∀ c ∈ blanks, isBlank c = true)
    (rest : List Char) : Ends (blanks ++ p.bracket :: rest) := by
  intro d hd
  cases blanks with
  | nil =>
      cases hd
      rcases p.bracket_eq with h | h <;> rw [h] <;> decide
  | cons b blanks =>
      obtain rfl := Option.some.inj hd
      have hb := hblanks b List.mem_cons_self
      simp only [isBlank, Bool.or_eq_true, beq_iff_eq] at hb
      rcases hb with ((rfl | rfl) | rfl) | rfl <;> decide

theorem isBlank_bracket : isBlank p.bracket = false := by
  rcases p.bracket_eq with h | h <;> rw [h] <;> decide

theorem reads_bracket {blanks : List Char} (hblanks : ∀ c ∈ blanks, isBlank c = true)
    {before : List π} {part : π} (h : Reads (p.whole (before.reverse ++ [part])) rest r) :
    Reads (p.done before part) (blanks ++ p.bracket :: rest) r :=
  (h.token (p.scanToken_bracket rest) p.isBlank_bracket le_rfl
    (p.step_closing before part)).blanks hblanks

/-- All parts, with a comma and a gap between them, and the bracket after the last one. -/
theorem reads_parts {gap : String} {blanks : List Char} (hgap : ∀ c ∈ gap.toList, isBlank c = true)
    (hblanks : ∀ c ∈ blanks, isBlank c = true) {texts : List String} {parts : List π}
    (h : List.Forall₂ p.Takes texts parts) (hne : texts ≠ []) (before : List π)
    (hread : Reads (p.whole (before.reverse ++ parts)) rest r) :
    Reads (p.start before)
      ((("," ++ gap).intercalate texts).toList ++ (blanks ++ p.bracket :: rest)) r := by
  induction h generalizing before with
  | nil => exact absurd rfl hne
  | @cons text part texts parts hpart hparts ih =>
      cases hparts with
      | nil =>
          rw [String.intercalate_singleton]
          exact hpart before _ r (p.ends_bracket hblanks rest) (p.reads_bracket hblanks hread)
      | cons hpart' hparts' =>
          have hnext := ih (List.cons_ne_nil _ _) (part :: before)
            (by rwa [List.reverse_cons, List.append_assoc])
          rw [String.intercalate_cons_cons, String.toList_append, String.toList_append,
            String.toList_append, List.append_assoc, List.append_assoc, List.append_assoc]
          refine hpart before _ r (fun c hc => by cases hc; decide) ?_
          exact (hnext.blanks hgap).token rfl rfl (by simp) (p.step_comma before part)

end Passage

/-- A member, with a gap after the colon. -/
theorem Passage.takes_member (key : String) {gap text : String}
    (hgap : ∀ c ∈ gap.toList, isBlank c = true) (h : Spells text j) (stack : List Frame) :
    (members stack).Takes (quoted key ++ (":" ++ gap) ++ text) (some key, j) := by
  intro before rest r hends hread
  have hcolon : Reads (.colon before (some key) stack)
      (':' :: (gap.toList ++ (text.toList ++ rest))) r :=
    ((h _ rest r hends hread).blanks hgap).token rfl rfl le_rfl rfl
  rw [String.toList_append, String.toList_append, String.toList_append, List.append_assoc,
    List.append_assoc, List.append_assoc]
  exact hcolon.spelled (toList_quoted key) (scanToken_quoted key _) rfl rfl

/-- The text of a container. Where it has parts, there may be gaps around them and after the commas
    between them. -/
inductive Layout (opening closing : String) : List String → String → Prop
  | empty : Layout opening closing [] (opening ++ closing)
  | parts {gap last : String} {texts : List String} (hgap : ∀ c ∈ gap.toList, isBlank c = true)
      (hlast : ∀ c ∈ last.toList, isBlank c = true) (h : texts ≠ []) :
      Layout opening closing texts
        (opening ++ gap ++ ("," ++ gap).intercalate texts ++ last ++ closing)

/-- A container of either kind, where the parser is in `opened` after the opening bracket. -/
theorem Passage.reads_layout {π : Type} (p : Passage π) {opening closing : String}
    {texts : List String} {parts : List π} {text : String}
    (hlayout : Layout opening closing texts text) (hclosing : closing.toList = [p.bracket])
    (h : List.Forall₂ p.Takes texts parts) {opened : ParseState}
    (hopening : ∀ rest, Reads opened rest r → Reads state (opening.toList ++ rest) r)
    (hstart : ∀ rest, Reads (p.start []) rest r → Reads opened rest r)
    (hempty : opened.step p.closing = some (p.whole []))
    (hread : Reads (p.whole parts) rest r) : Reads state (text.toList ++ rest) r := by
  cases hlayout with
  | empty =>
      cases h
      rw [String.toList_append, hclosing, List.append_assoc]
      exact hopening _ (hread.token (p.scanToken_bracket rest) p.isBlank_bracket le_rfl hempty)
  | @parts gap last _ hgap hlast hne =>
      have hparts := hopening _ ((hstart _ (p.reads_parts hgap hlast h hne [] hread)).blanks hgap)
      simpa only [String.toList_append, hclosing, List.append_assoc, List.singleton_append]
        using hparts

theorem spells_array {texts : List String} {elements : List Json} {text : String}
    (hlayout : Layout "[" "]" texts text) (h : List.Forall₂ Spells texts elements) :
    Spells text (.array elements) := fun stack _ _ _ hread =>
  (Passage.elements stack).reads_layout hlayout rfl
    (h.imp fun _ _ h => Passage.takes_element h stack)
    (fun _ h => h.token (t := .beginArray) rfl rfl le_rfl rfl) (fun _ h => h.arrayStart) rfl hread

theorem spells_object {texts : List String} {members : List (Option String × Json)} {text : String}
    (hlayout : Layout "\x7b" "\x7d" texts text)
    (h : ∀ stack, List.Forall₂ (Passage.members stack).Takes texts members) :
    Spells text (.object members) := fun stack _ _ _ hread =>
  (Passage.members stack).reads_layout hlayout rfl (h stack)
    (fun _ h => h.token (t := .beginObject) rfl rfl le_rfl rfl) (fun _ h => h.objectStart) rfl hread

/-! ## Values that can be written -/

/-- A value that has a text: its strings are texts, and its numbers follow the rules. -/
inductive Writable : Json → Prop
  | null : Writable .null
  | bool (b : Bool) : Writable (.bool b)
  | number {n : Numeral} (h : n.Proper) : Writable (.number n)
  | text (s : String) : Writable (.text s)
  | array {elements : List Json} (h : ∀ j ∈ elements, Writable j) : Writable (.array elements)
  | object {members : List (Option String × Json)} (hkeys : ∀ m ∈ members, m.1.isSome = true)
      (h : ∀ m ∈ members, Writable m.2) : Writable (.object members)

theorem compactElements_eq (elements : List Json) :
    compactElements elements = elements.map compact := by
  induction elements with
  | nil => rfl
  | cons j elements ih => rw [compactElements, ih, List.map_cons]

theorem compactMembers_eq (members : List (Option String × Json)) :
    compactMembers members =
      members.map fun m => quoted (m.1.getD "") ++ (":" ++ "") ++ m.2.compact := by
  induction members with
  | nil => rfl
  | cons m members ih => rw [compactMembers, ih, List.map_cons, String.append_empty]

theorem prettyElements_eq (level : Nat) (elements : List Json) :
    prettyElements level elements = elements.map (prettyAt level) := by
  induction elements with
  | nil => rfl
  | cons j elements ih => rw [prettyElements, ih, List.map_cons]

theorem prettyMembers_eq (level : Nat) (members : List (Option String × Json)) :
    prettyMembers level members =
      members.map fun m => quoted (m.1.getD "") ++ (":" ++ " ") ++ m.2.prettyAt level := by
  induction members with
  | nil => rfl
  | cons m members ih => rw [prettyMembers, ih, List.map_cons]; rfl

theorem layout_compact (opening closing : String) (texts : List String) :
    Layout opening closing texts (opening ++ ",".intercalate texts ++ closing) := by
  cases texts with
  | nil =>
      rw [String.intercalate_nil, String.append_empty]
      exact .empty
  | cons text texts =>
      simpa using @Layout.parts opening closing "" "" (text :: texts) (by simp) (by simp) (by simp)

theorem isBlank_of_mem_newline {level : Nat} {c : Char} (h : c ∈ (newline level).toList) :
    isBlank c = true := by
  rw [newline, String.toList_append, List.mem_append] at h
  rcases h with h | h
  · rw [List.mem_singleton.1 h]
    rfl
  · rw [String.toList_ofList] at h
    rw [List.eq_of_mem_replicate h]
    rfl

theorem layout_lines (opening closing : String) (level : Nat) (texts : List String) :
    Layout opening closing texts (lines opening closing level texts) := by
  cases texts with
  | nil => exact .empty
  | cons text texts =>
      exact .parts (fun _ => isBlank_of_mem_newline) (fun _ => isBlank_of_mem_newline) (by simp)

/-- The members of an object, each with the same gap after its colon. -/
theorem Passage.forall₂_takes_members {members : List (Option String × Json)} {gap : String}
    (hgap : ∀ c ∈ gap.toList, isBlank c = true) (text : Json → String)
    (hkeys : ∀ m ∈ members, m.1.isSome = true) (h : ∀ m ∈ members, Spells (text m.2) m.2)
    (stack : List Frame) : List.Forall₂ (Passage.members stack).Takes
      (members.map fun m => quoted (m.1.getD "") ++ (":" ++ gap) ++ text m.2) members := by
  refine List.forall₂_map_left_iff.2 (List.forall₂_same.2 fun m hm => ?_)
  obtain ⟨key, hkey⟩ := Option.isSome_iff_exists.1 (hkeys m hm)
  obtain ⟨_, j⟩ := m
  obtain rfl := hkey
  exact takes_member key hgap (h _ hm) stack

theorem spells_compact (h : j.Writable) : Spells j.compact j := by
  induction h with
  | null => exact spells_null
  | bool b => cases b <;> exact spells_bool _
  | number h => exact spells_number h
  | text s => exact spells_text s
  | array h ih =>
      rw [compact, compactElements_eq]
      exact spells_array (layout_compact _ _ _)
        (List.forall₂_map_left_iff.2 (List.forall₂_same.2 ih))
  | object hkeys h ih =>
      rw [compact, compactMembers_eq]
      exact spells_object (layout_compact _ _ _)
        (Passage.forall₂_takes_members (by simp) compact hkeys ih)

theorem spells_prettyAt (h : j.Writable) (level : Nat) : Spells (j.prettyAt level) j := by
  induction h generalizing level with
  | null => exact spells_null
  | bool b => cases b <;> exact spells_bool _
  | number h => exact spells_number h
  | text s => exact spells_text s
  | array h ih =>
      rw [prettyAt, prettyElements_eq]
      exact spells_array (layout_lines _ _ _ _)
        (List.forall₂_map_left_iff.2 (List.forall₂_same.2 fun j hj => ih j hj (level + 1)))
  | object hkeys h ih =>
      rw [prettyAt, prettyMembers_eq]
      exact spells_object (layout_lines _ _ _ _)
        (Passage.forall₂_takes_members (by simp [isBlank]) (prettyAt (level + 1)) hkeys
          fun m hm => ih m hm (level + 1))

theorem parse?_of_spells {text : String} (h : Spells text j) : parse? text = some j := by
  have hread := h [] [] j (fun _ hc => nomatch hc) (Reads.nil j)
  rw [List.append_nil] at hread
  exact parse?_eq_some_of_reads hread

/-- **What is written without blanks is read as what it was.** -/
theorem parse?_compact (h : j.Writable) : parse? j.compact = some j :=
  parse?_of_spells (spells_compact h)

/-- **What is written over several lines is read as what it was.** -/
theorem parse?_pretty (h : j.Writable) : parse? j.pretty = some j :=
  parse?_of_spells (spells_prettyAt h 0)

end CanvasTransform.Json

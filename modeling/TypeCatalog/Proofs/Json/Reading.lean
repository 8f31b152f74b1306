import Mathlib.Logic.Function.Basic
import TypeCatalog.Json
import TypeCatalog.Json.Scan

/-!
# Reading a document back

A reader for the documents that are written: strings, arrays and objects, with blanks between
their parts. Numbers and keywords are refused. What it reads is well formed, and what is printed in
a style that adds nothing but blanks is read as it was.

## Main definitions

- `Json.read` — the document that a text is
- `Json.Style.Blank` — a style that adds nothing but blanks

## Main statements

- `Json.skip_of_read` — what is read as a document is well formed
- `Json.string_quote` — a string is read as it was
- `Json.read_texts` — both texts of a document are read as the document
-/

namespace TypeCatalog.Json

open Scan

/-! ### The reader -/

/-- Reads the name of a member and the colon after it. -/
def readName (s : List Char) : Except Fault (String × List Char) := do
  let (_, r) ← openName s
  let (name, r) ← Scan.string r
  let (_, r) ← colon r
  return (name, r)

mutual

/-- Reads a document, nested at most as deep as the fuel allows. -/
def readWithin : Nat → List Char → Result Json
  | 0, _ => .error .ended
  | fuel + 1, s =>
    match skipBlanks s with
    | [] => .error .ended
    | '"' :: r => (Scan.string r).map fun p => (.string p.1, p.2)
    | '[' :: r =>
      match skipBlanks r with
      | [] => .error .ended
      | ']' :: r => .ok (.array [], r)
      | r => (readElements fuel r).map fun p => (.array p.1, p.2)
    | '\x7b' :: r =>
      match skipBlanks r with
      | [] => .error .ended
      | '\x7d' :: r => .ok (.object [], r)
      | r => (readMembers fuel r).map fun p => (.object p.1, p.2)
    | _ => .error .misplaced

/-- Reads the elements of an array, one or more, and the closing bracket. -/
def readElements : Nat → List Char → Result (List Json)
  | 0, _ => .error .ended
  | fuel + 1, s =>
    match readWithin fuel s with
    | .error fault => .error fault
    | .ok (element, r) =>
      match skipBlanks r with
      | [] => .error .ended
      | ',' :: r => (readElements fuel r).map fun p => (element :: p.1, p.2)
      | ']' :: r => .ok ([element], r)
      | _ => .error .malformed

/-- Reads the members of an object, one or more, and the closing brace. -/
def readMembers : Nat → List Char → Result (List (String × Json))
  | 0, _ => .error .ended
  | fuel + 1, s =>
    match readName s with
    | .error fault => .error fault
    | .ok (name, r) =>
      match readWithin fuel r with
      | .error fault => .error fault
      | .ok (value, r) =>
        match skipBlanks r with
        | [] => .error .ended
        | ',' :: r => (readMembers fuel r).map fun p => ((name, value) :: p.1, p.2)
        | '\x7d' :: r => .ok ([(name, value)], r)
        | _ => .error .malformed

end

/-- The document that a text is, with blanks around it. -/
def read (text : String) : Except Fault Json :=
  match readWithin (2 * text.length + 1) text.toList with
  | .error fault => .error fault
  | .ok (document, r) => if skipBlanks r = [] then .ok document else .error .malformed

/-! ### What is read is well formed -/

/-- A result that was mapped comes from a result. -/
theorem exists_ok_of_map {α β : Type} {x : Except Fault α} {f : α → β} {b : β}
    (h : x.map f = .ok b) : ∃ a, x = .ok a ∧ f a = b := by
  cases x with
  | error fault => cases h
  | ok a => cases h; exact ⟨a, rfl, rfl⟩

/-- Two steps succeed only if the first does and then the second. -/
theorem exists_ok_of_bind {α β : Type} {x : Except Fault α} {f : α → Except Fault β} {b : β}
    (h : x >>= f = .ok b) : ∃ a, x = .ok a ∧ f a = .ok b := by
  cases x with
  | error fault => cases h
  | ok a => exact ⟨a, rfl, h⟩

/-- Adding a character to a string succeeds only if the rest of it was read. -/
theorem push_eq_ok {c : Char} {result : Result (List Char)} {text r : List Char}
    (h : push c result = .ok (text, r)) : ∃ rest, result = .ok (rest, r) := by
  cases result with
  | error fault => cases h
  | ok p => cases h; exact ⟨p.1, rfl⟩

theorem exists_push {c : Char} {result : Result (List Char)} {r : List Char}
    (h : ∃ text, result = .ok (text, r)) : ∃ text, push c result = .ok (text, r) := by
  obtain ⟨text, rfl⟩ := h
  exact ⟨c :: text, rfl⟩

/-- Where another reading of a string stands when the strict one stands at a place. It does not keep
high surrogates. -/
def lenient : Place → Place
  | .code more value _ => .code more value none
  | .pair _ => .plain
  | .pairEscape _ => .escape
  | place => place

/-- A string that is read strictly is also read otherwise, up to the same quote. -/
theorem stringFrom_lenient {place : Place} {s text r : List Char}
    (h : stringFrom true place s = .ok (text, r)) :
    ∃ other, stringFrom false (lenient place) s = .ok (other, r) := by
  fun_induction stringFrom true place s generalizing text with
  | case2 => cases h; exact ⟨[], by simp [lenient, stringFrom]⟩
  | case3 r hne ih => simpa [lenient, stringFrom] using ih h
  | case5 c r hquote hslash hcontrol ih =>
    have hrest := exists_push (c := c) (ih (push_eq_ok h).choose_spec)
    simpa [lenient, stringFrom, hquote, hslash, hcontrol] using hrest
  | case6 c r meant hmeant ih =>
    have hrest := exists_push (c := meant) (ih (push_eq_ok h).choose_spec)
    simpa [lenient, stringFrom, hmeant] using hrest
  | case8 c r hshort hu hcode ih => simpa [lenient, stringFrom, hshort, hu, hcode] using ih h
  | case11 value high c r digit hdigit code more =>
    rename_i ih
    simpa [lenient, stringFrom, hdigit] using ih h
  | case12 value high c r digit hdigit hstrict => simp at hstrict
  | case13 value c r digit hdigit | case17 value c r digit hdigit =>
    rename_i ih
    have hrest := exists_push (c := '\uFFFD') (ih (push_eq_ok h).choose_spec)
    simpa [lenient, stringFrom, hdigit] using hrest
  | case15 value c r digit hdigit =>
    rename_i ih
    -- the strict reading waits for the other surrogate
    have hrest := exists_push (c := '\uFFFD') (ih h)
    simpa [lenient, stringFrom, hdigit] using hrest
  | case18 high r ih => simpa [lenient, stringFrom] using ih h
  | case21 high c r hu hcode ih =>
    have hshort : shortEscape? 'u' = none := by decide
    obtain rfl : c = 'u' := by simpa using hu
    simpa [lenient, stringFrom, hshort, hcode] using ih h
  | _ => cases h

/-- A string that is read is skipped, up to the same place. -/
theorem skipString_of_string {s r : List Char} {text : String}
    (h : Scan.string s = .ok (text, r)) : skipString s = .ok ((), r) := by
  obtain ⟨⟨characters, r⟩, hread, ⟨⟩⟩ := exists_ok_of_map h
  obtain ⟨other, hother⟩ := stringFrom_lenient hread
  have hplain : stringFrom false .plain s = .ok (other, r) := hother
  rw [skipString, hplain]
  rfl

/-- The name of a member that is read is skipped, up to the same place. -/
theorem openMember_of_readName {s r : List Char} {name : String}
    (h : readName s = .ok (name, r)) : openMember s = .ok ((), r) := by
  obtain ⟨⟨_, opened⟩, hopen, h⟩ := exists_ok_of_bind h
  obtain ⟨⟨text, closed⟩, hstring, h⟩ := exists_ok_of_bind h
  obtain ⟨⟨_, behind⟩, hcolon, ⟨⟩⟩ := exists_ok_of_bind h
  have hskip := skipString_of_string hstring
  simp [openMember, hopen, hskip, hcolon, bind, Except.bind]

section Skip

variable {fuel : Nat} {s r : List Char}

/-- A document is well formed if the elements or members in it are, which are read with less
fuel. -/
theorem skipValueWithin_of_read {document : Json}
    (helements : ∀ {s r elements}, readElements fuel s = .ok (elements, r) →
      skipElements fuel s = .ok ((), r))
    (hmembers : ∀ {s r members}, readMembers fuel s = .ok (members, r) →
      skipMembers fuel s = .ok ((), r))
    (h : readWithin (fuel + 1) s = .ok (document, r)) :
    skipValueWithin (fuel + 1) s = .ok ((), r) := by
  rw [readWithin] at h
  rw [skipValueWithin]
  split at h
  · cases h
  · next t hs =>
    obtain ⟨⟨text, r⟩, hstring, ⟨⟩⟩ := exists_ok_of_map h
    simp [hs, skipScalar, skipString_of_string hstring]
  · next t hs =>
    rw [hs]
    split at h
    · cases h
    · next u hu => cases h; simp [hu]
    · obtain ⟨⟨elements, r⟩, hread, ⟨⟩⟩ := exists_ok_of_map h
      simp [helements hread]
  · next t hs =>
    rw [hs]
    split at h
    · cases h
    · next u hu => cases h; simp [hu]
    · obtain ⟨⟨members, r⟩, hread, ⟨⟩⟩ := exists_ok_of_map h
      simp [hmembers hread]
  · cases h

variable (hvalue : ∀ {s r document}, readWithin fuel s = .ok (document, r) →
  skipValueWithin fuel s = .ok ((), r))

include hvalue

/-- Elements are well formed if the first of them is, and then the others. -/
theorem skipElements_of_read {elements : List Json}
    (helements : ∀ {s r elements}, readElements fuel s = .ok (elements, r) →
      skipElements fuel s = .ok ((), r))
    (h : readElements (fuel + 1) s = .ok (elements, r)) :
    skipElements (fuel + 1) s = .ok ((), r) := by
  rw [readElements] at h
  rw [skipElements]
  split at h
  · cases h
  · next element t hread =>
    rw [hvalue hread]
    split at h
    · cases h
    · next u hu =>
      obtain ⟨⟨rest, r⟩, hrest, ⟨⟩⟩ := exists_ok_of_map h
      simp [hu, helements hrest]
    · next u hu => cases h; simp [hu]
    · cases h

/-- Members are well formed if the first of them is, and then the others. -/
theorem skipMembers_of_read {members : List (String × Json)}
    (hmembers : ∀ {s r members}, readMembers fuel s = .ok (members, r) →
      skipMembers fuel s = .ok ((), r))
    (h : readMembers (fuel + 1) s = .ok (members, r)) :
    skipMembers (fuel + 1) s = .ok ((), r) := by
  rw [readMembers] at h
  rw [skipMembers]
  split at h
  · cases h
  · next name t hname =>
    rw [openMember_of_readName hname]
    dsimp only
    split at h
    · cases h
    · next value u hread =>
      rw [hvalue hread]
      split at h
      · cases h
      · next v hv =>
        obtain ⟨⟨rest, r⟩, hrest, ⟨⟩⟩ := exists_ok_of_map h
        simp [hv, hmembers hrest]
      · next v hv => cases h; simp [hv]
      · cases h

end Skip

/-- What is read as a document, as the elements of an array or as the members of an object is well
formed. -/
theorem skip_of_read (fuel : Nat) :
    (∀ {s r document}, readWithin fuel s = .ok (document, r) →
        skipValueWithin fuel s = .ok ((), r)) ∧
      (∀ {s r elements}, readElements fuel s = .ok (elements, r) →
        skipElements fuel s = .ok ((), r)) ∧
      ∀ {s r members}, readMembers fuel s = .ok (members, r) →
        skipMembers fuel s = .ok ((), r) := by
  induction fuel with
  | zero => exact ⟨nofun, nofun, nofun⟩
  | succ fuel ih =>
    obtain ⟨hvalue, helements, hmembers⟩ := ih
    exact ⟨skipValueWithin_of_read helements hmembers, skipElements_of_read hvalue helements,
      skipMembers_of_read hvalue hmembers⟩

/-! ### Strings are read back -/

theorem hexValue?_hexDigit {n : Nat} (hn : n < 16) : hexValue? (hexDigit n) = some n := by
  revert n
  decide

/-- Four characters are enough for a code. -/
theorem holdsCode_of_four (a b c d : Char) (s : List Char) :
    holdsCode (a :: b :: c :: d :: s) = true := by
  -- every character has an octet at least, and those behind the four only add to them
  have hgrow : ∀ (t : List Char) (n : Nat),
      n ≤ t.foldl (fun octets c => octets + c.utf8Size) n := by
    intro t
    induction t with
    | nil => exact fun n => Nat.le_refl n
    | cons e t ih => exact fun n => Nat.le_trans (Nat.le_add_right ..) (ih _)
  have hfour := hgrow s (0 + a.utf8Size + b.utf8Size + c.utf8Size + d.utf8Size)
  have ha := a.utf8Size_pos
  have hb := b.utf8Size_pos
  have hc := c.utf8Size_pos
  have hd := d.utf8Size_pos
  exact decide_eq_true (by simp only [List.foldl_cons]; omega)

/-- A short escape is read as what it stands for. -/
theorem stringFrom_shortEscape {c meant : Char} (h : shortEscape? c = some meant)
    (s : List Char) :
    stringFrom true .plain ('\\' :: c :: s) = push meant (stringFrom true .plain s) := by
  simp [stringFrom, h]

/-- A character that is escaped is read as it was. -/
theorem stringFrom_escape (c : Char) (s : List Char) :
    stringFrom true .plain (escape c ++ s) = push c (stringFrom true .plain s) := by
  fun_cases escape c with
  | case1 | case2 | case3 | case4 | case5 | case6 | case7 =>
    subst_vars
    exact stringFrom_shortEscape (by decide) s
  | case8 hquote hslash _ _ _ _ _ hcontrol =>
    -- a control character has a code of two zeros and two digits, and is no surrogate
    have hshort : shortEscape? 'u' = none := by decide
    have hzero : hexValue? '0' = some 0 := by decide
    have hhigh := hexValue?_hexDigit (show c.toNat / 16 < 16 by omega)
    have hlow := hexValue?_hexDigit (show c.toNat % 16 < 16 by omega)
    have hcode : c.toNat / 16 * 16 + c.toNat % 16 = c.toNat := by omega
    have hsurrogate : ¬ 0xD800 ≤ c.toNat ∧ ¬ 0xDC00 ≤ c.toNat := by omega
    simp [stringFrom, hshort, holdsCode_of_four, hzero, hhigh, hlow, hcode, hsurrogate]
  | case9 hquote hslash _ _ _ _ _ hcontrol => simp [stringFrom, hquote, hslash, hcontrol]

/-- An escaped text is read up to the quote that ends it. -/
theorem stringFrom_escaped (text : List Char) (s : List Char) :
    stringFrom true .plain (text.flatMap escape ++ '"' :: s) = .ok (text, s) := by
  induction text with
  | nil => simp [stringFrom]
  | cons c text ih =>
    rw [List.flatMap_cons, List.append_assoc, stringFrom_escape, ih]
    rfl

/-- A string in quotes is read as it was. -/
theorem string_quote (text : String) (s : List Char) :
    Scan.string (text.toList.flatMap escape ++ '"' :: s) = .ok (text, s) := by
  rw [Scan.string, stringFrom_escaped]
  simp [Except.map]

/-! ### Documents are read back -/

/-- A style that adds nothing but blanks. -/
structure Style.Blank (style : Style) : Prop where
  lineStart : ∀ depth, ∀ c ∈ style.lineStart depth, isBlank c = true
  colon : ∃ blanks, style.colon = ':' :: blanks ∧ ∀ c ∈ blanks, isBlank c = true

theorem Style.blank_compact : Style.compact.Blank where
  lineStart := by simp [compact]
  colon := ⟨[], rfl, by simp⟩

theorem Style.blank_pretty : Style.pretty.Blank where
  lineStart depth c hc := by
    rcases List.mem_cons.1 hc with rfl | hc
    · decide
    · rw [List.eq_of_mem_replicate hc]
      decide
  colon := ⟨[' '], rfl, by decide⟩

theorem skipBlanks_append {blanks : List Char} (h : ∀ c ∈ blanks, isBlank c = true)
    (s : List Char) : skipBlanks (blanks ++ s) = skipBlanks s :=
  List.dropWhile_append_of_pos h

theorem skipBlanks_cons {c : Char} (hc : isBlank c = false) (s : List Char) :
    skipBlanks (c :: s) = c :: s := by
  simp [skipBlanks, hc]

variable {style : Style}

/-- A printed document begins with its quote or its bracket. -/
theorem print_eq_cons (style : Style) (depth : Nat) (document : Json) :
    ∃ c rest, print style depth document = c :: rest ∧ isBlank c = false ∧ c ≠ ']' := by
  fun_cases print style depth document
  all_goals exact ⟨_, _, rfl, by decide, by decide⟩

/-- No document is printed as nothing. -/
theorem length_print_pos (style : Style) (depth : Nat) (document : Json) :
    0 < (print style depth document).length := by
  obtain ⟨c, rest, hprint, -⟩ := print_eq_cons style depth document
  rw [hprint]
  exact Nat.succ_pos _

/-- Blanks before a document do not matter. -/
theorem readWithin_blanks (fuel : Nat) {blanks : List Char} (h : ∀ c ∈ blanks, isBlank c = true)
    (s : List Char) : readWithin fuel (blanks ++ s) = readWithin fuel s := by
  cases fuel with
  | zero => rfl
  | succ fuel => rw [readWithin, readWithin, skipBlanks_append h]

/-- A document is read as it was wherever it is printed, if there is fuel for its characters. -/
def ReadsBack (style : Style) (document : Json) : Prop :=
  ∀ (depth fuel : Nat) (rest : List Char), (print style depth document).length ≤ fuel →
    readWithin fuel (print style depth document ++ rest) = .ok (document, rest)

/-- The elements of an array are read back if each of them is. -/
theorem readElements_print (hstyle : style.Blank) {element : Json} {more : List Json}
    (h : ∀ d ∈ element :: more, ReadsBack style d) (depth fuel : Nat) {before after : List Char}
    (hbefore : ∀ c ∈ before, isBlank c = true) (hafter : ∀ c ∈ after, isBlank c = true)
    (hfuel : (print style depth element).length + (printElements style depth more).length < fuel)
    (rest : List Char) :
    readElements fuel (before ++ (print style depth element ++
      (printElements style depth more ++ (after ++ ']' :: rest)))) = .ok (element :: more, rest) := by
  -- on the elements still to come: each has blanks before it and takes one unit of fuel
  induction more generalizing element fuel before with
  | nil =>
    obtain ⟨fuel, rfl⟩ := Nat.exists_eq_add_one.2 (by omega : 0 < fuel)
    have hread := h element (List.mem_cons_self ..) depth fuel (after ++ ']' :: rest) (by omega)
    have hclose : skipBlanks (after ++ ']' :: rest) = ']' :: rest := by
      rw [skipBlanks_append hafter, skipBlanks_cons (by decide)]
    rw [readElements, readWithin_blanks fuel hbefore, printElements, List.nil_append, hread]
    simp [hclose]
  | cons next more ih =>
    obtain ⟨fuel, rfl⟩ := Nat.exists_eq_add_one.2 (by omega : 0 < fuel)
    have htext : printElements style depth (next :: more) ++ (after ++ ']' :: rest) =
        ',' :: (style.lineStart depth ++ (print style depth next ++
          (printElements style depth more ++ (after ++ ']' :: rest)))) := by
      simp [printElements]
    have hlength : (print style depth next).length + (printElements style depth more).length <
        (printElements style depth (next :: more)).length := by
      simp only [printElements, List.length_append, List.length_cons]
      omega
    have hread := h element (List.mem_cons_self ..) depth fuel
      (printElements style depth (next :: more) ++ (after ++ ']' :: rest)) (by omega)
    have hmore := ih (fun d hd => h d (List.mem_cons_of_mem _ hd)) fuel (hstyle.lineStart depth)
      (by omega)
    rw [readElements, readWithin_blanks fuel hbefore, hread]
    simp [htext, skipBlanks_cons (c := ',') (by decide), hmore, Except.map]

/-- A name and the colon behind it are read back. -/
theorem readName_quote (hstyle : style.Blank) {before : List Char}
    (hbefore : ∀ c ∈ before, isBlank c = true) (name : String) (s : List Char) :
    ∃ blanks, (∀ c ∈ blanks, isBlank c = true) ∧
      readName (before ++ (quote name ++ (style.colon ++ s))) = .ok (name, blanks ++ s) := by
  obtain ⟨blanks, hcolon, hblanks⟩ := hstyle.colon
  refine ⟨blanks, hblanks, ?_⟩
  have hopen : openName (before ++ (quote name ++ (style.colon ++ s))) =
      .ok ((), name.toList.flatMap escape ++ '"' :: (':' :: (blanks ++ s))) := by
    rw [openName, skipBlanks_append hbefore, hcolon, quote, List.cons_append, List.cons_append,
      skipBlanks_cons (by decide)]
    simp
  have hseparator : colon (':' :: (blanks ++ s)) = .ok ((), blanks ++ s) := by
    rw [Scan.colon, skipBlanks_cons (by decide)]
    rfl
  simp [readName, hopen, string_quote, hseparator, bind, Except.bind, pure, Except.pure]

/-- The members of an object are read back if the value of each is. -/
theorem readMembers_print (hstyle : style.Blank) {name : String} {value : Json}
    {more : List (String × Json)} (h : ∀ p ∈ (name, value) :: more, ReadsBack style p.2)
    (depth fuel : Nat) {before after : List Char} (hbefore : ∀ c ∈ before, isBlank c = true)
    (hafter : ∀ c ∈ after, isBlank c = true)
    (hfuel : (print style depth value).length + (printMembers style depth more).length < fuel)
    (rest : List Char) :
    readMembers fuel (before ++ (quote name ++ (style.colon ++ (print style depth value ++
      (printMembers style depth more ++ (after ++ '\x7d' :: rest)))))) =
        .ok ((name, value) :: more, rest) := by
  -- on the members still to come, as for the elements of an array
  induction more generalizing name value fuel before with
  | nil =>
    obtain ⟨fuel, rfl⟩ := Nat.exists_eq_add_one.2 (by omega : 0 < fuel)
    obtain ⟨blanks, hblanks, hname⟩ := readName_quote hstyle hbefore name
      (print style depth value ++ (after ++ '\x7d' :: rest))
    have hread := h (name, value) (List.mem_cons_self ..) depth fuel (after ++ '\x7d' :: rest)
      (by dsimp only; omega)
    have hclose : skipBlanks (after ++ '\x7d' :: rest) = '\x7d' :: rest := by
      rw [skipBlanks_append hafter, skipBlanks_cons (by decide)]
    rw [readMembers, printMembers, List.nil_append, hname]
    simp [readWithin_blanks fuel hblanks, hread, hclose]
  | cons next more ih =>
    obtain ⟨nextName, nextValue⟩ := next
    obtain ⟨fuel, rfl⟩ := Nat.exists_eq_add_one.2 (by omega : 0 < fuel)
    have htext : printMembers style depth ((nextName, nextValue) :: more) ++
        (after ++ '\x7d' :: rest) =
          ',' :: (style.lineStart depth ++ (quote nextName ++ (style.colon ++
            (print style depth nextValue ++
              (printMembers style depth more ++ (after ++ '\x7d' :: rest)))))) := by
      simp [printMembers]
    have hlength : (print style depth nextValue).length +
        (printMembers style depth more).length <
          (printMembers style depth ((nextName, nextValue) :: more)).length := by
      simp only [printMembers, List.length_append, List.length_cons]
      omega
    obtain ⟨blanks, hblanks, hname⟩ := readName_quote hstyle hbefore name
      (print style depth value ++ (printMembers style depth ((nextName, nextValue) :: more) ++
        (after ++ '\x7d' :: rest)))
    have hread := h (name, value) (List.mem_cons_self ..) depth fuel
      (printMembers style depth ((nextName, nextValue) :: more) ++ (after ++ '\x7d' :: rest))
      (by dsimp only; omega)
    have hmore := ih (fun p hp => h p (List.mem_cons_of_mem _ hp)) fuel (hstyle.lineStart depth)
      (by omega)
    rw [htext] at hname hread ⊢
    rw [readMembers, hname]
    simp [readWithin_blanks fuel hblanks, hread, skipBlanks_cons (c := ',') (by decide), hmore,
      Except.map]

/-- A string is read back. -/
theorem readsBack_string (style : Style) (text : String) : ReadsBack style (string text) := by
  intro depth fuel rest hfuel
  obtain ⟨fuel, rfl⟩ := Nat.exists_eq_add_one.2 (Nat.lt_of_lt_of_le (length_print_pos ..) hfuel)
  have htext : print style depth (string text) ++ rest =
      '"' :: (text.toList.flatMap escape ++ '"' :: rest) := by
    simp [print, quote]
  rw [readWithin, htext, skipBlanks_cons (by decide)]
  simp [string_quote, Except.map]

/-- An array is read back if its elements are. -/
theorem readsBack_array (hstyle : style.Blank) {elements : List Json}
    (h : ∀ d ∈ elements, ReadsBack style d) : ReadsBack style (array elements) := by
  intro depth fuel rest hfuel
  cases elements with
  | nil =>
    obtain ⟨fuel, rfl⟩ := Nat.exists_eq_add_one.2 (Nat.lt_of_lt_of_le (length_print_pos ..) hfuel)
    simp [readWithin, print, skipBlanks_cons (c := '[') (by decide),
      skipBlanks_cons (c := ']') (by decide)]
  | cons element more =>
    obtain ⟨fuel, rfl⟩ := Nat.exists_eq_add_one.2 (Nat.lt_of_lt_of_le (length_print_pos ..) hfuel)
    have htext : print style depth (array (element :: more)) ++ rest =
        '[' :: (style.lineStart (depth + 1) ++ (print style (depth + 1) element ++
          (printElements style (depth + 1) more ++ (style.lineStart depth ++ ']' :: rest)))) := by
      simp [print]
    have hlength : (print style (depth + 1) element).length +
        (printElements style (depth + 1) more).length < fuel := by
      simp only [print, List.length_append, List.length_cons] at hfuel
      omega
    have hnone : ∀ c ∈ [], isBlank c = true := nofun
    have hread := readElements_print hstyle h (depth + 1) fuel hnone (hstyle.lineStart depth)
      hlength rest
    -- the first element does not begin with the closing bracket of an empty array
    obtain ⟨c, tail, hhead, hblank, hclose⟩ := print_eq_cons style (depth + 1) element
    rw [List.nil_append, hhead, List.cons_append] at hread
    rw [readWithin, htext, skipBlanks_cons (by decide)]
    simp [skipBlanks_append (hstyle.lineStart (depth + 1)), hhead, skipBlanks_cons hblank, hclose,
      hread, Except.map]

/-- An object is read back if the values of its members are. -/
theorem readsBack_object (hstyle : style.Blank) {members : List (String × Json)}
    (h : ∀ p ∈ members, ReadsBack style p.2) : ReadsBack style (object members) := by
  intro depth fuel rest hfuel
  cases members with
  | nil =>
    obtain ⟨fuel, rfl⟩ := Nat.exists_eq_add_one.2 (Nat.lt_of_lt_of_le (length_print_pos ..) hfuel)
    simp [readWithin, print, skipBlanks_cons (c := '\x7b') (by decide),
      skipBlanks_cons (c := '\x7d') (by decide)]
  | cons member more =>
    obtain ⟨name, value⟩ := member
    obtain ⟨fuel, rfl⟩ := Nat.exists_eq_add_one.2 (Nat.lt_of_lt_of_le (length_print_pos ..) hfuel)
    have htext : print style depth (object ((name, value) :: more)) ++ rest =
        '\x7b' :: (style.lineStart (depth + 1) ++ (quote name ++ (style.colon ++
          (print style (depth + 1) value ++ (printMembers style (depth + 1) more ++
            (style.lineStart depth ++ '\x7d' :: rest)))))) := by
      simp [print]
    have hlength : (print style (depth + 1) value).length +
        (printMembers style (depth + 1) more).length < fuel := by
      simp only [print, List.length_append, List.length_cons] at hfuel
      omega
    have hnone : ∀ c ∈ [], isBlank c = true := nofun
    have hread := readMembers_print hstyle h (depth + 1) fuel hnone (hstyle.lineStart depth)
      hlength rest
    -- the first member begins with a quote, and not with the brace of an empty object
    obtain ⟨tail, htail⟩ : ∃ tail, quote name ++ (style.colon ++
        (print style (depth + 1) value ++ (printMembers style (depth + 1) more ++
          (style.lineStart depth ++ '\x7d' :: rest)))) = '"' :: tail := ⟨_, rfl⟩
    rw [List.nil_append, htail] at hread
    rw [readWithin, htext, htail, skipBlanks_cons (by decide)]
    simp [skipBlanks_append (hstyle.lineStart (depth + 1)), skipBlanks_cons (c := '"') (by decide),
      hread, Except.map]

/-- The value of a member is smaller than the members, which the induction on documents needs. -/
theorem sizeOf_snd_lt {p : String × Json} {members : List (String × Json)} (h : p ∈ members) :
    sizeOf p.2 < sizeOf members := by
  have hmember := List.sizeOf_lt_of_mem h
  have hpair : sizeOf p.2 < sizeOf p := by simp +arith [Prod.mk.sizeOf_spec p.1 p.2]
  omega

/-- Every document is read as it was, by induction on the document. -/
theorem readsBack (hstyle : style.Blank) : ∀ document : Json, ReadsBack style document
  | string text => readsBack_string style text
  | array elements => readsBack_array hstyle fun d _ => readsBack hstyle d
  | object members => readsBack_object hstyle fun p hp =>
    have _hsize := sizeOf_snd_lt hp
    readsBack hstyle p.2

/-- A printed document is read as it was, and is well formed. -/
theorem read_print (hstyle : style.Blank) (document : Json) :
    read (String.ofList (document.print style 0)) = .ok document ∧
      skipValue (document.print style 0) = .ok ((), []) := by
  have hread := readsBack hstyle document 0 (2 * (document.print style 0).length + 1) [] (by omega)
  rw [List.append_nil] at hread
  constructor
  · rw [read, String.length_ofList, String.toList_ofList, hread]
    rfl
  · exact (skip_of_read _).1 hread

/-- Both texts of a document are read as the document. -/
theorem read_texts (document : Json) : ∀ text ∈ [document.compact, document.pretty],
    skipValue text.toList = .ok ((), []) ∧ read text = .ok document := by
  intro text htext
  have hstyle : ∃ style : Style, style.Blank ∧ text = String.ofList (document.print style 0) := by
    rcases List.mem_cons.1 htext with rfl | htext
    · exact ⟨.compact, Style.blank_compact, rfl⟩
    · rw [List.mem_singleton.1 htext]
      exact ⟨.pretty, Style.blank_pretty, rfl⟩
  obtain ⟨style, hblank, rfl⟩ := hstyle
  obtain ⟨hread, hskip⟩ := read_print hblank document
  exact ⟨by rwa [String.toList_ofList], hread⟩

/-- Different documents are printed differently. -/
theorem print_injective (hstyle : style.Blank) : Function.Injective (print style 0) := by
  intro document other h
  have hread := (read_print hstyle document).1
  rw [h, (read_print hstyle other).1] at hread
  exact (Except.ok.inj hread).symm

end TypeCatalog.Json

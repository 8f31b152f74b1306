import Mathlib.Data.List.Infix
import TypeCatalog.Proofs.Text.Octets
import TypeCatalog.Source

/-!
# Excerpts

The text that a node spans is cut out of the octets of a source. If the node begins and ends between
two characters, it is just the text that stands there. If it does not, because its tree belongs to
another source, the characters that lie in the span as a whole are still read, and replacement
characters stand only for what is left of the others, at the two ends.

## Main definitions

- `Utf8.charactersWithin` — the characters that lie between two octets
- `Utf8.slice?` — the octets between two places, which may be out of range
- `Source.excerpt?` — an excerpt that fails if it would take octets out of range

## Main statements

- `Source.excerpt?_eq_some` — no octets are ever taken out of range
- `Source.excerpt_append` — an excerpt between characters
- `Source.toList_excerpt` — an excerpt that may cut characters
- `Source.excerpt_verbatim` — all of this
-/

namespace TypeCatalog

namespace Text.Utf8

/-- Characters with the places of their first octets, if the first of them begins at a place. -/
def placedFrom (place : Nat) : List Char → List (Nat × Char)
  | [] => []
  | c :: rest => (place, c) :: placedFrom (place + c.utf8Size) rest

/-- The characters that lie between two places, if the first of all begins at a place. -/
def withinFrom (place start stop : Nat) (cs : List Char) : List Char :=
  ((placedFrom place cs).filter fun entry =>
    decide (start ≤ entry.1 ∧ entry.1 + entry.2.utf8Size ≤ stop)).map (·.2)

/-- The characters of a text whose octets all lie between two places, in order. -/
def charactersWithin (text : String) (start stop : Nat) : List Char :=
  withinFrom 0 start stop text.toList

variable {place start stop : Nat} {c : Char} {cs : List Char}

/-- A character whose octets all lie between the places is kept. -/
theorem withinFrom_cons_of_pos (hstart : start ≤ place) (hstop : place + c.utf8Size ≤ stop) :
    withinFrom place start stop (c :: cs) =
      c :: withinFrom (place + c.utf8Size) start stop cs := by
  simp [withinFrom, placedFrom, hstart, hstop]

/-- A character that is cut, or that lies before or behind them, is left out. -/
theorem withinFrom_cons_of_neg (h : ¬ (start ≤ place ∧ place + c.utf8Size ≤ stop)) :
    withinFrom place start stop (c :: cs) = withinFrom (place + c.utf8Size) start stop cs := by
  rw [withinFrom, placedFrom, List.filter_cons_of_neg (by simpa using h)]
  rfl

/-- Nothing lies before the first character. -/
theorem withinFrom_eq_nil (h : stop ≤ place) : withinFrom place start stop cs = [] := by
  induction cs generalizing place with
  | nil => rfl
  | cons c rest ih =>
    have hpos := c.utf8Size_pos
    rw [withinFrom_cons_of_neg (by omega), ih (by omega)]

/-- A place is between two characters, before the first one or behind the last one, if the first of
all begins at a place. -/
def IsBoundaryFrom (place : Nat) (cs : List Char) (n : Nat) : Prop :=
  ∃ before, before <+: cs ∧ place + (octetsOf before).length = n

/-- No place is before the first character. -/
theorem IsBoundaryFrom.le (h : IsBoundaryFrom place cs start) : place ≤ start := by
  obtain ⟨before, -, rfl⟩ := h
  exact Nat.le_add_right ..

/-- A place between characters is before the first one, or between those that follow it. -/
theorem IsBoundaryFrom.of_cons (h : IsBoundaryFrom place (c :: cs) start) :
    start = place ∨ IsBoundaryFrom (place + c.utf8Size) cs start := by
  obtain ⟨before, hbefore, rfl⟩ := h
  obtain rfl | ⟨rest, rfl, hrest⟩ := List.prefix_cons_iff.1 hbefore
  · exact .inl rfl
  · refine .inr ⟨rest, hrest, ?_⟩
    rw [octetsOf_cons, List.length_append, String.length_utf8EncodeChar, Nat.add_assoc]

/-! ### Octets of cut characters -/

/-- Where a span ends, at most one character is cut, and one replacement character stands for it. -/
theorem decodeLossyFrom_take_octetsOf (hstart : start ≤ place) (hstop : place ≤ stop) :
    ∃ n ≤ 1, decodeLossyFrom none ((octetsOf cs).take (stop - place)) =
        withinFrom place start stop cs ++ List.replicate n replacement ∧
      (IsBoundaryFrom place cs stop → n = 0) := by
  induction cs generalizing place with
  | nil =>
    refine ⟨0, by decide, ?_, fun _ => rfl⟩
    simp [octetsOf, withinFrom, placedFrom, decodeLossyFrom]
  | cons c rest ih =>
    have hpos := c.utf8Size_pos
    have hlength := String.length_utf8EncodeChar c
    by_cases hnext : place + c.utf8Size ≤ stop
    · obtain ⟨n, hn, heq, hboundary⟩ := ih (Nat.le_add_right_of_le hstart) hnext
      refine ⟨n, hn, ?_, fun h => hboundary (h.of_cons.resolve_left (by omega))⟩
      have htake : stop - place = (String.utf8EncodeChar c).length +
          (stop - (place + c.utf8Size)) := by omega
      rw [octetsOf_cons, htake, List.take_length_add_append,
        (spells_utf8EncodeChar c).decodeLossyFrom_append, heq,
        withinFrom_cons_of_pos hstart hnext, List.cons_append]
    · -- the span ends before this character does, so no later one lies in it
      have hnone : withinFrom place start stop (c :: rest) = [] := by
        rw [withinFrom_cons_of_neg (by omega), withinFrom_eq_nil (by omega)]
      rw [octetsOf_cons, List.take_append_of_le_length (by omega), hnone]
      obtain hempty | hcut := Nat.eq_or_lt_of_le hstop
      · refine ⟨0, by decide, ?_, fun _ => rfl⟩
        rw [hempty, Nat.sub_self]
        rfl
      · refine ⟨1, Nat.le_refl 1, ?_, fun h => ?_⟩
        · exact (spells_utf8EncodeChar c).decodeLossyFrom_take (by omega) (by omega)
        · have hle := (h.of_cons.resolve_left (by omega)).le
          omega

/-- Where a span begins, at most one character is cut, and each of its octets is replaced. -/
theorem decodeLossyFrom_drop_octetsOf (hplace : place ≤ start) (hstop : start ≤ stop) :
    ∃ m ≤ 3, ∃ n ≤ 1,
      decodeLossyFrom none (((octetsOf cs).drop (start - place)).take (stop - start)) =
        List.replicate m replacement ++ withinFrom place start stop cs ++
          List.replicate n replacement ∧
      (IsBoundaryFrom place cs start → m = 0) ∧ (IsBoundaryFrom place cs stop → n = 0) := by
  induction cs generalizing place with
  | nil =>
    refine ⟨0, by decide, 0, by decide, ?_, fun _ => rfl, fun _ => rfl⟩
    simp [octetsOf, withinFrom, placedFrom, decodeLossyFrom]
  | cons c rest ih =>
    have hlength := String.length_utf8EncodeChar c
    have hsize := c.utf8Size_le_four
    obtain rfl | hbegun := Nat.eq_or_lt_of_le hplace
    · obtain ⟨n, hn, heq, hboundary⟩ :=
        @decodeLossyFrom_take_octetsOf place place stop (c :: rest) (Nat.le_refl place) hstop
      refine ⟨0, by decide, n, hn, ?_, fun _ => rfl, hboundary⟩
      rw [Nat.sub_self, List.drop_zero, heq]
      rfl
    rw [withinFrom_cons_of_neg (by omega), octetsOf_cons]
    by_cases hnext : place + c.utf8Size ≤ start
    · obtain ⟨m, hm, n, hn, heq, hfirst, hlast⟩ := ih hnext
      refine ⟨m, hm, n, hn, ?_, fun h => hfirst (h.of_cons.resolve_left (by omega)),
        fun h => hlast (h.of_cons.resolve_left (by omega))⟩
      have hdrop : start - place = (String.utf8EncodeChar c).length +
          (start - (place + c.utf8Size)) := by omega
      rw [hdrop, List.drop_length_add_append, heq]
    -- the span begins within this character
    have hfirst : ¬ IsBoundaryFrom place (c :: rest) start := fun h => by
      have hle := (h.of_cons.resolve_left (by omega)).le
      omega
    rw [List.drop_append_of_le_length (by omega)]
    by_cases hwhole : place + c.utf8Size ≤ stop
    · obtain ⟨n, hn, heq, hlast⟩ :=
        @decodeLossyFrom_take_octetsOf (place + c.utf8Size) start stop rest (by omega) hwhole
      refine ⟨(String.utf8EncodeChar c).length - (start - place), by omega, n, hn, ?_,
        fun h => absurd h hfirst, fun h => hlast (h.of_cons.resolve_left (by omega))⟩
      have htake : stop - start = ((String.utf8EncodeChar c).drop (start - place)).length +
          (stop - (place + c.utf8Size)) := by
        rw [List.length_drop]
        omega
      rw [htake, List.take_length_add_append,
        (spells_utf8EncodeChar c).decodeLossyFrom_drop (by omega), heq, List.append_assoc]
    · refine ⟨stop - start, by omega, 0, by decide, ?_, fun h => absurd h hfirst, fun _ => rfl⟩
      rw [List.take_append_of_le_length (by rw [List.length_drop]; omega),
        (spells_utf8EncodeChar c).decodeLossyFrom_take_drop (by omega) (by omega),
        withinFrom_eq_nil (by omega), List.append_nil, List.replicate_zero, List.append_nil]

/-! ### Boundaries -/

/-- A valid position of a text is one between two of its characters. -/
theorem isBoundaryFrom_of_isValid {text : String} {n : Nat}
    (h : (⟨n⟩ : String.Pos.Raw).IsValid text) : IsBoundaryFrom 0 text.toList n := by
  obtain ⟨before, after, rfl, hn⟩ := String.Pos.Raw.isValid_iff_exists_append.1 h
  refine ⟨before.toList, ⟨after.toList, String.toList_append.symm⟩, ?_⟩
  rw [Nat.zero_add, ← encode_eq_octetsOf, length_encode]
  exact (congrArg String.Pos.Raw.byteIdx hn).symm

/-- Behind a part of a text, another part ends at each later place between two characters. -/
theorem exists_append_of_isValid {before rest : String} (h : before.utf8ByteSize ≤ stop)
    (hstop : (⟨stop⟩ : String.Pos.Raw).IsValid (before ++ rest)) :
    ∃ middle after, rest = middle ++ after ∧ (before ++ middle).utf8ByteSize = stop := by
  obtain ⟨front, after, heq, hfront⟩ := String.Pos.Raw.isValid_iff_exists_append.1 hstop
  have hsize : front.utf8ByteSize = stop := (congrArg String.Pos.Raw.byteIdx hfront).symm
  have hlists : before.toList ++ rest.toList = front.toList ++ after.toList := by
    rw [← String.toList_append, heq, String.toList_append]
  obtain ⟨middle, hmiddle, hrest⟩ | ⟨more, hmore, hafter⟩ := List.append_eq_append_iff.1 hlists
  · refine ⟨String.ofList middle, after, String.toList_inj.1 ?_, ?_⟩
    · rw [String.toList_append, String.toList_ofList, hrest]
    · have hbefore : before ++ String.ofList middle = front := String.toList_inj.1 <| by
        rw [String.toList_append, String.toList_ofList, hmiddle]
      rw [hbefore, hsize]
  · -- the place cannot lie within the first part, so it is the end of it
    have hbefore : before = front ++ String.ofList more := String.toList_inj.1 <| by
      rw [String.toList_append, String.toList_ofList, hmore]
    have hempty : (String.ofList more).utf8ByteSize = 0 := by
      rw [hbefore, String.utf8ByteSize_append] at h
      omega
    refine ⟨"", rest, String.empty_append.symm, ?_⟩
    rw [String.append_empty, hbefore, String.utf8ByteSize_append, hempty, hsize, Nat.add_zero]

/-- The octets of the middle of a text are cut out by the lengths of what is before it. -/
theorem slice_encode (before middle after : String) :
    ((encode (before ++ middle ++ after)).drop before.utf8ByteSize).take
      ((before ++ middle).utf8ByteSize - before.utf8ByteSize) = encode middle := by
  have hmiddle : (before ++ middle).utf8ByteSize - before.utf8ByteSize =
      (encode middle).length := by
    rw [String.utf8ByteSize_append, length_encode]
    omega
  rw [hmiddle, encode_append, encode_append, List.append_assoc, ← length_encode before,
    List.drop_left, List.take_left]

/-- The octets between two places. They are out of range if the first place is behind the second, or
the second behind the end. -/
def slice? (octets : List UInt8) (start stop : Nat) : Option (List UInt8) :=
  if start ≤ stop ∧ stop ≤ octets.length then some ((octets.drop start).take (stop - start))
  else none

end Text.Utf8

namespace Source

open Text

variable {start stop : Nat}

/-- The text between two octets, where taking octets out of range fails. -/
def excerpt? (s : Source) (start stop : Nat) : Option String :=
  if start < s.octets.length ∧ stop ≤ s.octets.length then
    (Utf8.slice? s.octets start stop).map Utf8.decodeLossy
  else some ""

/-- No octets are taken out of range. -/
theorem excerpt?_eq_some (s : Source) (h : start ≤ stop) :
    s.excerpt? start stop = some (s.excerpt start stop) := by
  rw [excerpt?, excerpt]
  split
  case isTrue hrange => rw [Utf8.slice?, if_pos ⟨h, hrange.2⟩, Option.map_some]
  case isFalse => rfl

variable (path : String) (language : Language)

theorem length_octets_ofText (text : String) :
    (ofText path language text).octets.length = text.utf8ByteSize :=
  Utf8.length_encode text

/-- An excerpt between characters is the text that stands there. -/
theorem excerpt_append (before middle after : String) :
    (ofText path language (before ++ middle ++ after)).excerpt before.utf8ByteSize
      (before ++ middle).utf8ByteSize = middle := by
  rw [excerpt, length_octets_ofText]
  have hslice := Utf8.slice_encode before middle after
  split
  case isTrue => exact hslice ▸ Utf8.decodeLossy_encode middle
  case isFalse hrange =>
    have hempty : middle.utf8ByteSize = 0 := by
      simp only [String.utf8ByteSize_append] at hrange
      omega
    exact (String.utf8ByteSize_eq_zero_iff.1 hempty).symm

/-- An excerpt that may cut characters: those that lie in the span as a whole, and replacement
characters for what is left of the others. -/
theorem toList_excerpt (text : String) (h : start ≤ stop) (hstart : start < text.utf8ByteSize)
    (hstop : stop ≤ text.utf8ByteSize) :
    ∃ m ≤ 3, ∃ n ≤ 1, ((ofText path language text).excerpt start stop).toList =
        List.replicate m Utf8.replacement ++ Utf8.charactersWithin text start stop ++
          List.replicate n Utf8.replacement ∧
      ((⟨start⟩ : String.Pos.Raw).IsValid text → m = 0) ∧
      ((⟨stop⟩ : String.Pos.Raw).IsValid text → n = 0) := by
  obtain ⟨m, hm, n, hn, heq, hfirst, hlast⟩ :=
    @Utf8.decodeLossyFrom_drop_octetsOf 0 start stop text.toList (Nat.zero_le start) h
  refine ⟨m, hm, n, hn, ?_, hfirst ∘ Utf8.isBoundaryFrom_of_isValid,
    hlast ∘ Utf8.isBoundaryFrom_of_isValid⟩
  rw [excerpt, length_octets_ofText, if_pos ⟨hstart, hstop⟩, Utf8.decodeLossy,
    String.toList_ofList, ofText, Utf8.encode_eq_octetsOf]
  exact heq

/-- An excerpt never fails. Between characters it is the text that stands there, and excerpts that
follow each other are one excerpt; if it cuts characters, those that it does not cut are still read,
unchanged and in order. -/
theorem excerpt_verbatim (text : String) (h : start ≤ stop) :
    let s := ofText path language text
    s.excerpt? start stop = some (s.excerpt start stop) ∧
      (¬ (start < text.utf8ByteSize ∧ stop ≤ text.utf8ByteSize) → s.excerpt start stop = "") ∧
      ((⟨start⟩ : String.Pos.Raw).IsValid text → (⟨stop⟩ : String.Pos.Raw).IsValid text →
        (∃ before after, text = before ++ s.excerpt start stop ++ after ∧
          before.utf8ByteSize = start) ∧
        Utf8.slice? (Utf8.encode text) start stop = some (Utf8.encode (s.excerpt start stop)) ∧
        ∀ last, stop ≤ last → (⟨last⟩ : String.Pos.Raw).IsValid text →
          s.excerpt start stop ++ s.excerpt stop last = s.excerpt start last) ∧
      (start < text.utf8ByteSize → stop ≤ text.utf8ByteSize →
        ∃ m ≤ 3, ∃ n ≤ 1, (s.excerpt start stop).toList =
            List.replicate m Utf8.replacement ++ Utf8.charactersWithin text start stop ++
              List.replicate n Utf8.replacement ∧
          ((⟨start⟩ : String.Pos.Raw).IsValid text → m = 0) ∧
          ((⟨stop⟩ : String.Pos.Raw).IsValid text → n = 0)) := by
  intro s
  refine ⟨s.excerpt?_eq_some h, fun hrange => ?_, fun hstart hstop => ?_,
    toList_excerpt path language text h⟩
  · rw [excerpt, length_octets_ofText, if_neg hrange]
  -- the text is cut where the excerpt begins and where it ends
  obtain ⟨before, rest, htext, hbefore⟩ := String.Pos.Raw.isValid_iff_exists_append.1 hstart
  obtain rfl : before.utf8ByteSize = start := (congrArg String.Pos.Raw.byteIdx hbefore).symm
  obtain ⟨middle, after, rfl, rfl⟩ := Utf8.exists_append_of_isValid h (htext ▸ hstop)
  obtain rfl : text = before ++ middle ++ after := by rw [htext, String.append_assoc]
  have hmiddle : s.excerpt before.utf8ByteSize (before ++ middle).utf8ByteSize = middle :=
    excerpt_append path language before middle after
  have hlength := Utf8.length_encode (before ++ middle ++ after)
  refine ⟨⟨before, after, by rw [hmiddle], rfl⟩, ?_, fun last hle hlast => ?_⟩
  · rw [hmiddle, Utf8.slice?, if_pos ⟨h, hlength ▸ hstop.le_utf8ByteSize⟩, Utf8.slice_encode]
  · obtain ⟨next, rest, rfl, rfl⟩ := Utf8.exists_append_of_isValid hle hlast
    have htext : before ++ middle ++ next ++ rest = before ++ middle ++ (next ++ rest) :=
      String.append_assoc
    have hassoc : before ++ (middle ++ next) = before ++ middle ++ next := String.append_assoc.symm
    have hnext := excerpt_append path language (before ++ middle) next rest
    have hboth := excerpt_append path language before (middle ++ next) rest
    rw [htext] at hnext
    rw [hassoc, htext] at hboth
    rw [hmiddle, hnext, hboth]

/-- Between characters the excerpts of a text with characters of two, three, one and four octets are
parts of it; one that cuts the first and the last of them still has those between. -/
theorem excerpt_verbatim_cut :
    let s := ofText "A.cs" .csharp "é€x😀"
    (s.excerpt 2 5 ++ s.excerpt 5 6 = s.excerpt 2 6 ∧
      Utf8.slice? (Utf8.encode "é€x😀") 2 5 = some (Utf8.encode (s.excerpt 2 5))) ∧
      s.excerpt 1 11 = "" ∧
      ∃ m ≤ 3, ∃ n ≤ 1, (s.excerpt 1 8).toList =
        List.replicate m Utf8.replacement ++ ['€', 'x'] ++ List.replicate n Utf8.replacement := by
  intro s
  obtain ⟨-, -, hwhole, -⟩ := @excerpt_verbatim 2 5 "A.cs" .csharp "é€x😀" (by decide)
  obtain ⟨-, hslice, happend⟩ := hwhole (by decide) (by decide)
  obtain ⟨-, houtside, -⟩ := @excerpt_verbatim 1 11 "A.cs" .csharp "é€x😀" (by decide)
  obtain ⟨-, -, -, hcut⟩ := @excerpt_verbatim 1 8 "A.cs" .csharp "é€x😀" (by decide)
  obtain ⟨m, hm, n, hn, hread, -⟩ := hcut (by decide) (by decide)
  exact ⟨⟨happend 6 (by decide) (by decide), hslice⟩, houtside (by decide), m, hm, n, hn, hread⟩

end Source

end TypeCatalog

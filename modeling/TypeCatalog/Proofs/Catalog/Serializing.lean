import Mathlib.Data.Prod.Basic
import TypeCatalog.Proofs.Catalog.Merging
import TypeCatalog.Proofs.Json.Reading

/-!
# Catalogs as text

Catalogs that are handed on as text can be read back from it, in either style, and no two of them
have the same text.

## Main statements

- `Catalogs.toJson_injective` — other catalogs are another document
- `Catalogs.read_toJson` — what the text of catalogs is read as
-/

namespace TypeCatalog

theorem Json.string_injective : Function.Injective Json.string := fun _ _ h => Json.string.inj h

/-- A list of texts is told by its document. -/
theorem Json.strings_injective : Function.Injective Json.strings := fun _ _ h =>
  List.map_injective_iff.2 string_injective (Json.array.inj h)

theorem ClassRecord.toJson_injective : Function.Injective ClassRecord.toJson := by
  rintro ⟨⟩ ⟨⟩ h
  simpa [toJson, Json.strings_injective.eq_iff] using h

theorem EnumRecord.toJson_injective : Function.Injective EnumRecord.toJson := by
  rintro ⟨⟩ ⟨⟩ h
  simpa [toJson, Json.strings_injective.eq_iff] using h

/-- A catalog is told by its document if each of its records is. -/
theorem Catalog.toJson_injective {α : Type} {recordJson : α → Json}
    (hrecord : Function.Injective recordJson) : Function.Injective (Catalog.toJson recordJson) := by
  rintro ⟨entries⟩ ⟨others⟩ h
  have hentries : entries.map (Prod.map id recordJson) = others.map (Prod.map id recordJson) :=
    Json.object.inj h
  have hinjective : Function.Injective (Prod.map (id : String → String) recordJson) :=
    Function.injective_id.prodMap hrecord
  rw [List.map_injective_iff.2 hinjective hentries]

namespace Catalogs

/-- Other catalogs, or the same in another order, are another document. -/
theorem toJson_injective : Function.Injective Catalogs.toJson := by
  rintro ⟨classes, enums⟩ ⟨otherClasses, otherEnums⟩ h
  have hmembers : classes.toJson ClassRecord.toJson = otherClasses.toJson ClassRecord.toJson ∧
      enums.toJson EnumRecord.toJson = otherEnums.toJson EnumRecord.toJson := by
    simpa [toJson] using h
  rw [Catalog.toJson_injective ClassRecord.toJson_injective hmembers.1,
    Catalog.toJson_injective EnumRecord.toJson_injective hmembers.2]

end Catalogs

/-- The records of a catalog stand under their own names. -/
theorem Catalog.Indexed.toJson_eq {α : Type} [Record α] {c : Catalog α} (h : c.Indexed)
    (recordJson : α → Json) :
    c.toJson recordJson =
      .object (c.records.map fun record => (Record.name record, recordJson record)) := by
  rw [toJson, records, List.map_map]
  congr 1
  apply List.map_congr_left
  intro entry hentry
  rw [Function.comp_apply, h.name_eq entry hentry]

namespace Catalogs

/-- Written in either style, catalogs are well formed and are read as an object of the classes and
the enums, in order, each under its own name. -/
theorem read_toJson {c : Catalogs} (h : c.Reachable) :
    (∀ text ∈ [c.toJson.compact, c.toJson.pretty],
      Json.Scan.skipValue text.toList = .ok ((), []) ∧
      Json.read text = .ok (.object [
        ("classes", .object (c.classes.records.map fun record => (record.name, .object [
          ("name", .string record.name),
          ("parents", .array (record.parents.map .string)),
          ("fields", .array (record.fields.map .string)),
          ("properties", .array (record.properties.map .string)),
          ("events", .array (record.events.map .string)),
          ("methods", .array (record.methods.map .string))]))),
        ("enums", .object (c.enums.records.map fun record => (record.name, .object [
          ("name", .string record.name),
          ("constants", .array (record.constants.map .string))])))])) ∧
      (c.classes.records.map ClassRecord.name).Nodup ∧
      (c.enums.records.map EnumRecord.name).Nodup ∧
      ∀ other : Catalogs,
        other.toJson.compact = c.toJson.compact ∨ other.toJson.pretty = c.toJson.pretty →
          other = c := by
  have hindexed := h.indexed
  refine ⟨?_, ?_, ?_, ?_⟩
  · intro text htext
    have hread := Json.read_texts c.toJson text htext
    rw [toJson, hindexed.classes.toJson_eq, hindexed.enums.toJson_eq] at hread
    exact hread
  · exact hindexed.classes.map_name_records ▸ hindexed.classes.nodup
  · exact hindexed.enums.map_name_records ▸ hindexed.enums.nodup
  · intro other hother
    apply toJson_injective
    rcases hother with hcompact | hpretty
    · exact Json.print_injective Json.Style.blank_compact (String.ofList_inj.1 hcompact)
    · exact Json.print_injective Json.Style.blank_pretty (String.ofList_inj.1 hpretty)

/-- An enum whose name has a quote and a line end in it, with a constant that is a control
character. -/
theorem read_toJson_escaped :
    let c : Catalogs :=
      { enums := (Catalog.empty.insert .reject "a.cs" (EnumRecord.mk "\"\n" ["\x01"])).1 }
    c.Reachable ∧
      c.toJson.compact =
        "\x7b\"classes\":\x7b\x7d,\"enums\":\x7b\"\\\"\\n\":\x7b" ++
          "\"name\":\"\\\"\\n\",\"constants\":[\"\\u0001\"]\x7d\x7d\x7d" ∧
      Json.read c.toJson.pretty = .ok (.object [("classes", .object []), ("enums", .object [
        ("\"\n", .object [("name", .string "\"\n"), ("constants", .array [.string "\x01"])])])]) := by
  intro c
  have hreachable : c.Reachable := .insertEnum .reject "a.cs" _ .empty
  have hpretty : c.toJson.pretty ∈ [c.toJson.compact, c.toJson.pretty] :=
    List.mem_cons_of_mem _ (List.mem_cons_self ..)
  exact ⟨hreachable, by decide +kernel, ((read_toJson hreachable).1 _ hpretty).2⟩

end Catalogs

end TypeCatalog

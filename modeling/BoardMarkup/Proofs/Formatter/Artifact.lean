import BoardMarkup.Formatter.Compile
import BoardMarkup.Proofs.Json.Record

/-! Parsers and snapshots are read from their JSON as they were. -/
namespace BoardMarkup

open Json

theorem textsOfJson?_textsToJson (t : Table String) : textsOfJson? (textsToJson t) = some t := by
  have h := asFields?_record asText?_text t.entries
  rw [textsToJson, textsOfJson?, h, Option.map_some, Table.ofList_entries]

theorem asList?_listToJson (ts : List String) : asList? asText? (listToJson ts) = some ts :=
  asList?_map asText?_text ts

namespace Censor

theorem Word.ofJson?_toJson (w : Word) : Word.ofJson? w.toJson = some w := by
  rw [Word.toJson, Word.ofJson?, slots?_record]
  · simp [optional?_text, Slot.required?, asText?_text]
  · rfl
  · decide

theorem WordList.ofJson?_toJson (l : WordList) : WordList.ofJson? l.toJson = some l := by
  rw [WordList.toJson, WordList.ofJson?, slots?_record]
  · simp [Slot.required?, asList?_map Word.ofJson?_toJson]
  · rfl
  · decide

end Censor

theorem Autoemail.ofJson?_toJson (a : Autoemail) : Autoemail.ofJson? a.toJson = some a := by
  rw [Autoemail.toJson, Autoemail.ofJson?, slots?_record]
  · simp [Slot.required?, asText?_text]
  · rfl
  · decide

theorem Autolink.ofJson?_toJson (a : Autolink) : Autolink.ofJson? a.toJson = some a := by
  rw [Autolink.toJson, Autolink.ofJson?, slots?_record]
  · simp [Slot.required?, asText?_text, asBool?]
  · rfl
  · decide

theorem ParserBBCode.ofJson?_toJson (b : ParserBBCode) : ParserBBCode.ofJson? b.toJson = some b := by
  rw [ParserBBCode.toJson, ParserBBCode.ofJson?, slots?_record]
  · simp [Slot.required?, asText?_text]
  · rfl
  · decide

theorem Parser.ofJson?_toJson (p : Parser) : Parser.ofJson? p.toJson = some p := by
  have hvars := asFields?_record (g := fun n : Int64 => .int n.toInt) asInt64?_int
    p.registeredVars.entries
  have hemail := optional?_ofOption Autoemail.ofJson?_toJson nofun p.autoemail
  have hlink := optional?_ofOption Autolink.ofJson?_toJson nofun p.autolink
  rw [Parser.toJson, Parser.ofJson?, slots?_record]
  · simp [optional?_text, Slot.required?, asBool?, hvars, hemail, hlink, asList?_listToJson,
      asList?_map ParserBBCode.ofJson?_toJson, asList?_map Censor.Word.ofJson?_toJson]
  · rfl
  · decide

/-- A snapshot is read from its JSON as it was, although the name of a class stands before it. -/
theorem Snapshot.ofJson?_fields (s : Snapshot) (className : String) :
    Snapshot.ofJson? (.record (("class", .text className) :: s.fields)) = some s := by
  have hnames : (("class", Json.text className) :: s.fields).map (·.1) = ["class", "templates",
    "emoticons", "emoticons_not_if_condition", "parameters", "quick_renderer"] := rfl
  have hslots : slots? ["templates", "emoticons", "emoticons_not_if_condition", "parameters",
      "quick_renderer"] (.record (("class", .text className) :: s.fields)) =
        some (s.fields.map fun f => .given f.2) :=
    slots?_of_subset (List.subset_cons_self _ s.fields) hnames (by decide) rfl
  rw [Snapshot.ofJson?, hslots]
  simp [Snapshot.fields, optional?_text, Slot.required?, textsOfJson?_textsToJson, asBool?]

section Plain

@[simp]
theorem isPlain_listToJson (ts : List String) : (listToJson ts).isPlain = true :=
  isPlain_list_map isPlain_text ts

@[simp]
theorem isPlain_textsToJson (t : Table String) : (textsToJson t).isPlain = true := by
  simp [textsToJson]

theorem Censor.Word.isPlain_toJson (w : Censor.Word) : w.toJson.isPlain = true := by
  simp [Censor.Word.toJson]

theorem Censor.WordList.isPlain_toJson (l : Censor.WordList) : l.toJson.isPlain = true := by
  simp [Censor.WordList.toJson, isPlain_list_map Censor.Word.isPlain_toJson]

theorem Parser.isPlain_toJson (p : Parser) : p.toJson.isPlain = true := by
  have hbbcodes : (list (p.bbcodes.map ParserBBCode.toJson)).isPlain = true :=
    isPlain_list_map (fun b => by simp [ParserBBCode.toJson]) _
  have hwords : (list (p.censoredWords.map Censor.Word.toJson)).isPlain = true :=
    isPlain_list_map Censor.Word.isPlain_toJson _
  have hemail : (ofOption Autoemail.toJson p.autoemail).isPlain = true :=
    isPlain_ofOption (fun a => by simp [Autoemail.toJson]) _
  have hlink : (ofOption Autolink.toJson p.autolink).isPlain = true :=
    isPlain_ofOption (fun a => by simp [Autolink.toJson]) _
  simp [Parser.toJson, hbbcodes, hwords, hemail, hlink]

theorem Snapshot.isPlain_fields (s : Snapshot) (className : String) :
    (Json.record (("class", .text className) :: s.fields)).isPlain = true := by
  simp [Snapshot.fields]

end Plain

theorem Snapshot.read_fileText (s : Snapshot) (className : String) :
    (ofBytes? (s.fileText className).toUTF8).bind Snapshot.ofJson? = some s := by
  rw [Snapshot.fileText, ofBytes?_writePretty (s.isPlain_fields className), Option.bind_some,
    s.ofJson?_fields]

end BoardMarkup

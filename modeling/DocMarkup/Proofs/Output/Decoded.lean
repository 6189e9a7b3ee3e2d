import DocMarkup.Output.Document
import DocMarkup.Proofs.Output.Json

namespace DocMarkup

namespace Output

open Json

theorem hexValue?_hexDigit (n : Nat) : Toml.hexValue? (hexDigit n) = some (n % 16) := by
  have all : ∀ m < 16, Toml.hexValue? (Nat.digitChar m) = some m := by decide
  exact all (n % 16) (Nat.mod_lt n (by decide))

theorem isUnit_hexDigits {n : Nat} (small : n < 256) :
    IsUnit n ['0', '0', hexDigit (n / 16), hexDigit n] := by
  have zero : Toml.hexValue? '0' = some 0 := rfl
  have isUnit := IsUnit.mk zero zero (hexValue?_hexDigit (n / 16)) (hexValue?_hexDigit n)
  have same : ((0 * 16 + 0) * 16 + n / 16 % 16) * 16 + n % 16 = n := by omega
  rwa [same] at isUnit

theorem spellsChar_escape (c : Char) : SpellsChar c (escape c) := by
  simp only [escape, beq_iff_eq]
  -- one branch for each of the short forms
  iterate 7
    split
    · rename_i same
      subst same
      exact .short (by decide)
  rename_i quote backslash _ _ _ _ _
  split <;> rename_i control
  · have spelled : SpellsChar (Char.ofNat c.toNat)
        ('\\' :: 'u' :: ['0', '0', hexDigit (c.toNat / 16), hexDigit c.toNat]) :=
      .unit (isUnit_hexDigits (by omega)) (by simp [isHigh]; omega) (by simp [isLow]; omega)
    rwa [Char.ofNat_toNat] at spelled
  · exact .plain quote backslash (Nat.le_of_not_lt control)

theorem spellsString_escape (text : Text) : SpellsString text (text.flatMap escape) := by
  induction text with
  | nil => exact .nil
  | cons c text ih => exact .cons (spellsChar_escape c) ih

theorem spells_quoted (text : Text) : Spells (.value (.string text)) (quoted text) :=
  .string (spellsString_escape text)

end Output

namespace Document

open Json Output

theorem spells_items (item : Text) (items : List Text) {before behind : Text}
    (gap : IsGap before) (gap' : IsGap behind) :
    Spells (.items ((item :: items).map .string))
      (before ++ (Text.joinWith ",\n" ((item :: items).map fun item => "    " ++ quoted item) ++
        behind)) := by
  have indent : IsGap "    " := by decide +kernel
  induction items generalizing item before with
  | nil =>
    have spelled := Spells.padded (gap.append indent) (spells_quoted item) gap'
    simpa [Text.joinWith] using Spells.lastItem spelled
  | cons next items ih =>
    have feed : IsGap "\n" := by decide +kernel
    have spelled := Spells.padded (gap.append indent) (spells_quoted item) .nil
    have more := Spells.item spelled (ih next feed)
    simpa [Text.joinWith] using more

theorem spells_jsonList (items : List Text) :
    Spells (.value (.array (items.map .string))) (jsonList items) := by
  cases items with
  | nil => exact .emptyArray .nil
  | cons item items =>
    have feed : IsGap "\n" := by decide +kernel
    have last : IsGap "\n  " := by decide +kernel
    have opening : ("[\n" : Text) = '[' :: "\n" := rfl
    have closing : ("\n  ]" : Text) = "\n  " ++ [']'] := rfl
    have spelled := Spells.array (spells_items item items feed last)
    rw [jsonList, opening, closing]
    · simpa using spelled
    · simp

theorem spells_jsonSource (source : Option Text) :
    Spells (.value (source.elim .null .string)) (jsonSource source) := by
  cases source with
  | none => exact .named List.mem_cons_self
  | some source => exact spells_quoted source

/-- What the JSON form of a document says. -/
def value (document : Document) : Value :=
  .object [("source", document.source.elim .null .string),
    ("lines", .array (document.lines.map .string)),
    ("text", .string (Text.joinLines document.lines))]

theorem spells_line {name : Text} (plain : name.flatMap escape = name) {text gap : Text}
    {value : Value} (spells : Spells (.value value) text) (isGap : IsGap gap) :
    Spells (.member (name, value)) ("\n  \"" ++ (name ++ ("\": " ++ (text ++ gap)))) := by
  have indent : IsGap "\n  " := by decide +kernel
  have space : IsGap " " := by decide +kernel
  have named : SpellsString name name := by
    have spelled := spellsString_escape name
    rwa [plain] at spelled
  have opening : ("\n  \"" : Text) = "\n  " ++ ['"'] := rfl
  have closing : ("\": " : Text) = '"' :: ([] ++ ':' :: " ") := rfl
  have spelled := Spells.member indent named .nil (.padded space spells isGap)
  rw [opening, closing]
  simpa using spelled

theorem spells_toJson (document : Document) :
    ∃ body, document.toJson = body ++ ['\n'] ∧ Spells (.value document.value) body := by
  have plain : ∀ name ∈ (["source", "lines", "text"] : List Text), name.flatMap escape = name := by
    decide +kernel
  have feed : IsGap "\n" := by decide +kernel
  have source := spells_line (plain "source" (by simp)) (spells_jsonSource document.source) .nil
  have lines := spells_line (plain "lines" (by simp)) (spells_jsonList document.lines) .nil
  have joined := spells_line (plain "text" (by simp)) (spells_quoted document.text) feed
  have first : ("\x7b\n  \"source\": " : Text) =
      '\x7b' :: ("\n  \"" ++ ("source" ++ "\": ")) := rfl
  have second : (",\n  \"lines\": " : Text) = ',' :: ("\n  \"" ++ ("lines" ++ "\": ")) := rfl
  have third : (",\n  \"text\": " : Text) = ',' :: ("\n  \"" ++ ("text" ++ "\": ")) := rfl
  have last : ("\n\x7d\n" : Text) = "\n" ++ ['\x7d', '\n'] := rfl
  refine ⟨_, ?_, .object (.members source (.members lines (.lastMember joined)))⟩
  unfold toJson
  rw [first, second, third, last]
  simp only [List.append_assoc, List.cons_append, List.nil_append, List.append_nil]

/-- The JSON form spells the document and nothing else, and a decoder finds the document in it. The
decoded text and the decoded lines agree. -/
theorem decode_render_json (document : Document) :
    ∃ body, document.render .json = body ++ ['\n'] ∧
      (∀ value, Spells (.value value) body ↔ value = document.value) ∧
      decode (document.render .json) = some document.value ∧
      (document.lines ≠ [] → (∀ line ∈ document.lines, '\n' ∉ line) →
        (Text.joinLines document.lines).splitOn '\n' = document.lines) := by
  obtain ⟨body, eq, spelled⟩ := document.spells_toJson
  have found {value : Value} (spells : Spells (.value value) body) : decode body = some value :=
    decode_of_spells (by simpa using Spells.padded .nil spells .nil)
  have feed : IsGap ['\n'] := by decide
  refine ⟨body, eq, fun value => ⟨fun spells => ?_, ?_⟩, ?_, ?_⟩
  · exact Option.some.inj ((found spells).symm.trans (found spelled))
  · rintro rfl
    exact spelled
  · rw [render, eq]
    exact decode_of_spells (.padded .nil spelled feed)
  · intro nonempty inside
    exact List.splitOn_intercalate '\n' inside nonempty

def sampleDocument : Document := ⟨some "a.txt", [":Keys: **k** -- \"quoted\"", ""]⟩

theorem decode_render_sampleDocument :
    sampleDocument.lines ≠ [] ∧ (∀ line ∈ sampleDocument.lines, '\n' ∉ line) ∧
      decode (sampleDocument.render .json) = some (.object
        [("source", .string "a.txt"),
          ("lines", .array [.string ":Keys: **k** -- \"quoted\"", .string ""]),
          ("text", .string ":Keys: **k** -- \"quoted\"\n")]) ∧
      (Text.joinLines sampleDocument.lines).splitOn '\n' = sampleDocument.lines := by
  have nonempty : sampleDocument.lines ≠ [] := List.cons_ne_nil _ _
  have inside : ∀ line ∈ sampleDocument.lines, '\n' ∉ line := by decide +kernel
  obtain ⟨_, -, -, decoded, split⟩ := sampleDocument.decode_render_json
  exact ⟨nonempty, inside, decoded, split nonempty inside⟩

end Document

end DocMarkup

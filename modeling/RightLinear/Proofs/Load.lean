import RightLinear.Load
import RightLinear.Proofs.Text.Lines

namespace RightLinear

variable {fs : FileSystem} {path s : String} {a b : List Char}

theorem Text.decodeUtf8_toUTF8 : decodeUtf8 s.toUTF8 = .ok s := by
  have hs : String.fromUTF8? s.toUTF8 = some s := dif_pos s.isValidUTF8
  rw [decodeUtf8, hs]

theorem CaseFile.read_congr (h : Text.lines a = Text.lines b) : read a = read b := by
  rw [read, read, h]

namespace FileSystem

theorem readText_of_readFile (h : fs.readFile path = .ok s.toUTF8) :
    fs.readText path = .ok (Text.normalize s.toList) := by
  simp only [readText, h, Text.decodeUtf8_toUTF8]

-- Of a text only its lines matter to the reader, and reading a file leaves the lines as they are.
theorem loadCases_eq_read (h : fs.readFile path = .ok s.toUTF8) :
    fs.loadCases path = (CaseFile.read s.toList).mapError .cases := by
  have hr : CaseFile.read (Text.normalize s.toList) = CaseFile.read s.toList :=
    CaseFile.read_congr Text.lines_normalize
  simp only [loadCases, readText_of_readFile h, hr]

-- Carriage returns and line feeds in every order, and ends of lines that reading a file leaves.
def mixedText : String :=
  "1:\r\r\nG1:\n\rstray\r\n# rules\x0bnone\u2028S -> a\rb\r\r\n\nA -> b\r"

def mixedFile : FileSystem :=
  FileSystem.initial.put ⟨.above 0, ["mixed.txt"]⟩ (.file mixedText.toUTF8)

theorem loadCases_eq_read_mixed : mixedFile.readFile "mixed.txt" = .ok mixedText.toUTF8 ∧
    Text.normalize mixedText.toList ≠ mixedText.toList ∧
    mixedFile.loadCases "mixed.txt" = .ok
      ⟨[{ id := 1, grammars := [{ name := "G1", productions := [⟨"S", "a"⟩, ⟨"A", "b"⟩] }] }],
        [.unexpected 5 "stray", .invalidRule 7 "none", .invalidRule 9 "b"]⟩ := by
  have h : mixedFile.readFile "mixed.txt" = .ok mixedText.toUTF8 := by decide +kernel
  have hr : CaseFile.read mixedText.toList = .ok
      ⟨[{ id := 1, grammars := [{ name := "G1", productions := [⟨"S", "a"⟩, ⟨"A", "b"⟩] }] }],
        [.unexpected 5 "stray", .invalidRule 7 "none", .invalidRule 9 "b"]⟩ := by
    decide +kernel
  refine ⟨h, by decide +kernel, ?_⟩
  rw [loadCases_eq_read h, hr]
  rfl

end FileSystem
end RightLinear

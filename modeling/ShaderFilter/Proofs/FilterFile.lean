import ShaderFilter.FilterFile
import ShaderFilter.Proofs.Files.Paths
import ShaderFilter.Proofs.Run
import ShaderFilter.Proofs.Text.Decoding

/-!
# Loading filter files

A file is decoded as a whole, and the text is then cut into lines. Since decoding keeps the lines
(`Text.lineList_decodeLossy`), a file can as well be cut into lines first, byte by byte, and each
line be decoded by itself. So bytes that are not well formed do no harm to other lines, and the
number of a line that is refused is its number in the file.
-/

namespace ShaderFilter

/-- The title of a filter file that gives itself none. -/
def fileTitle (path : String) : String := (Files.Path.fileName? path).getD path

/-- Bytes as a text, with a replacement character for each part that is not well formed. -/
def Text.lossy (bs : List UInt8) : String := String.ofList (Utf8.decodeLossy bs)

theorem Text.lines_lossy (bs : List UInt8) : lines (lossy bs) = (byteLines bs).map lossy := by
  rw [lines, lossy, String.toList_ofList, lineList_decodeLossy, List.map_map]
  rfl

theorem Text.lossy_bytes (s : String) : lossy (bytes s) = s := by
  rw [lossy, Utf8.decodeLossy_bytes, String.ofList_toList]

theorem loadFilter_of_read {t : Files.Tree} {path : String} {content : List UInt8}
    (h : t.read path = .ok content) :
    loadFilter t path = (Script.parse (fileTitle path) (Text.lossy content)).mapError .refused := by
  rw [loadFilter, h]
  rfl

/-- The title is the name in which the path ends. -/
theorem fileTitle_of_endsIn {path name : String} (h : Files.Path.EndsIn path name) :
    fileTitle path = name := by
  rw [fileTitle, Files.Path.fileName?_eq_some.2 h, Option.getD_some]

/-- A path that ends in no name is the title itself. -/
theorem fileTitle_of_not_endsIn {path : String} (h : ∀ name, ¬ Files.Path.EndsIn path name) :
    fileTitle path = path := by
  have hnone : Files.Path.fileName? path = none := by
    rw [Option.eq_none_iff_forall_ne_some]
    exact fun name hname => h name (Files.Path.fileName?_eq_some.1 hname)
  rw [fileTitle, hnone, Option.getD_none]

/-- **Lossy decoding moves no line.** The lines of a file are those that line feeds, carriage
returns and pairs of them make of its bytes, each decoded by itself. The filter is loaded as from
these lines, with the same records, and has the same definition or is refused at the same line
for the same reason. A file whose bytes are a text is loaded as this text. The title is the name in
which the path ends, and the path itself if it ends in none. -/
theorem load_by_byte_lines {t : Files.Tree} {path : String} {content : List UInt8}
    (h : t.read path = .ok content) :
    (∀ ps, Text.ByteLined content ps ↔ ps = Text.byteLines content) ∧
    Text.lines (Text.lossy content) = (Text.byteLines content).map Text.lossy ∧
    loadFilter t path = (Script.parseLines (fileTitle path)
      ((Text.byteLines content).map Text.lossy)).mapError .refused ∧
    (∀ text, content = Text.bytes text →
      loadFilter t path = (Script.parse (fileTitle path) text).mapError .refused) ∧
    (∀ name, Files.Path.EndsIn path name → fileTitle path = name) ∧
    ((∀ name, ¬ Files.Path.EndsIn path name) → fileTitle path = path) := by
  have hload := loadFilter_of_read h
  refine ⟨fun ps => Text.byteLined_iff, Text.lines_lossy content, ?_, ?_,
    fun name => fileTitle_of_endsIn, fileTitle_of_not_endsIn⟩
  · rw [hload, Script.parse, Text.lines_lossy]
  · rintro text rfl
    rw [hload, Text.lossy_bytes]

/-- A file in which a carriage return cuts a character short, and two bytes that start none stand
before a line feed. -/
def damaged : List UInt8 :=
  Text.bytes "#setting title,a" ++ [0xe2, 0x82, 0x0d] ++ Text.bytes "b" ++ [0xff, 0x80, 0x0a] ++
    Text.bytes "#texture t,0"

/-- A file tree that holds the damaged file. -/
def damagedTree : Files.Tree := ⟨[(["f.comp"], .file damaged)], []⟩

/-- The damage stays in its lines, and the third line is refused as the third one. -/
theorem load_by_byte_lines_damaged :
    Text.lines (Text.lossy damaged) = ["#setting title,a\ufffd", "b\ufffd\ufffd", "#texture t,0"] ∧
    (loadFilter damagedTree "f.comp").result = .error (.refused ⟨3, .reservedBinding⟩) ∧
    fileTitle "f.comp" = "f.comp" := by
  have hread : damagedTree.read "f.comp" = .ok damaged := by
    have hsteps : Files.Path.steps "f.comp" = [.name "f.comp"] := by decide +kernel
    have hsize : "f.comp".utf8ByteSize = 6 := by decide +kernel
    have hresolve : damagedTree.resolve "f.comp" = .ok (["f.comp"], .file damaged) := by
      simp [damagedTree, Files.Tree.resolve, Files.Tree.follow, Files.Tree.at?,
        Files.Tree.linkLimit, hsteps, hsize]
    rw [Files.Tree.read, hresolve]
    rfl
  have hbytes : (Text.byteLines damaged).map Text.lossy =
      ["#setting title,a\ufffd", "b\ufffd\ufffd", "#texture t,0"] := by decide +kernel
  have hname : Files.Path.EndsIn "f.comp" "f.comp" :=
    ⟨by decide +kernel, by decide +kernel, [], [], by simp, .inl rfl, .nil⟩
  obtain ⟨-, hlines, hload, -, htitle, -⟩ := load_by_byte_lines hread
  rw [hbytes] at hlines hload
  refine ⟨hlines, ?_, htitle _ hname⟩
  rw [hload]
  decide +kernel

end ShaderFilter

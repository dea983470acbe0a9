import Bilingual.Project.Export
import Bilingual.Proofs.Project.Action
import Bilingual.Proofs.Project.Write
import Bilingual.Proofs.Snapshot

set_option autoImplicit false

/-! # Snapshots in files

A snapshot of plain values that is written to a file is read back from it as it was, and what was read is written with
the same bytes (`Project.readSnapshot_writeSnapshot`). -/

namespace Bilingual

namespace Action

variable {files : Files} {path : Path}

/-- The snapshot in a file that holds the bytes of its document. Reading leaves the files as they are. -/
theorem readSnapshot_of_bytes {s : Snapshot} (hs : s.IsPlain) {bytes : List UInt8}
    (hencode : Text.Utf8.encode? s.write = some bytes) (hbytes : files.bytes path = .ok bytes) :
    (readSnapshot path files).result = .ok s ∧ (readSnapshot path files).files = files := by
  have htext : (read path files).result = .ok s.write := by
    have hread : files.read path = .ok s.write := by
      unfold Files.read
      simp only [hbytes, bind, Except.bind, Text.Utf8.decode?_eq_some_iff.2 hencode]
      rfl
    show (files.read path).mapError ProjectFailure.file = _
    rw [hread]
    rfl
  rw [readSnapshot, bind_of_ok htext, hs.read_write]
  exact ⟨rfl, rfl⟩

end Action

namespace Project

variable {files : Files} {path : Path}

/-- A snapshot whose categories and whose provenance are made of plain values is written wherever a text can be, and
the snapshot that is read from the file is the same one: its categories and all names inside come in the same order,
and the same numbers of sites are expected. Writing what is read gives the same bytes. -/
theorem readSnapshot_writeSnapshot {s : Snapshot} (hs : s.IsPlain) (hpath : (files.write path []).2 = .ok ()) :
    let written := writeSnapshot path s files
    let again := (Action.readSnapshot path >>= writeSnapshot path) written.files
    written.result = .ok () ∧ (Action.readSnapshot path written.files).result = .ok s ∧ again.result = .ok () ∧
      ∃ bytes, written.files.bytes path = .ok bytes ∧ again.files.bytes path = .ok bytes := by
  obtain ⟨bytes, hencode⟩ := Text.Utf8.exists_encode? hs.hasSurrogate_write
  obtain ⟨hwrite, hbytes⟩ := Files.write_bytes hpath hencode
  obtain ⟨hwrite', hbytes'⟩ := Files.write_bytes (Files.write_again hwrite) hencode
  have hresult : ∀ {files : Files}, (files.write path s.write).2 = .ok () →
      (writeSnapshot path s files).result = .ok () := by
    intro files h
    show (files.write path s.write).2.mapError ProjectFailure.file = _
    rw [h]
    rfl
  intro written again
  obtain ⟨hread, hsame⟩ : (Action.readSnapshot path written.files).result = .ok s ∧
      (Action.readSnapshot path written.files).files = written.files :=
    Action.readSnapshot_of_bytes hs hencode hbytes
  have hagain : again = _ := Action.bind_of_ok (f := writeSnapshot path) hread
  rw [hagain, hsame]
  exact ⟨hresult hwrite, hread, hresult hwrite', bytes, hbytes, hbytes'⟩

/-- A snapshot with what its document has to escape: quotes, backslashes, control code points and line separators in
names and texts, besides empty and nested lists and objects, large and negative integers, and fields of its provenance
that are not known. -/
def escapesSample : Snapshot where
  categories := [
    ("b\n\"\\", .object [("\x00\x1f", .null), ("", .text "\r\t\x08\x0c/\u2028é"), ("a", .list [])]),
    ("a", .list [.integer (-120), .integer 36893488147419103232, .bool true, .bool false, .null, .object [],
      .list [.list [.text ""], .object [("_meta", .integer 0)]]]),
    ("locale", .text "x")]
  provenance := some {
    schemaVersion := -3, generatedAt := some "", locale := some "\""
    occurrences := [("b.z", 2), ("b.a", -1)]
    others := [("_meta", .object [("z", .null), ("a", .null)]), ("", .bool false)] }

theorem escapesSample_isPlain : escapesSample.IsPlain where
  categories := by decide
  metaKey_unused := by decide
  provenance := by
    intro m hm
    cases hm
    constructor <;> decide

/-- A directory without the one that the file is in. -/
def outsideFiles : Files := .empty ⟨"/", ["w"]⟩

theorem readSnapshot_writeSnapshot_escapes :
    escapesSample.IsPlain ∧ (outsideFiles.write (Path.ofText "/w/out/content-snapshot.json") []).2 = .ok () ∧
      (let path := Path.ofText "/w/out/content-snapshot.json"
       let written := writeSnapshot path escapesSample outsideFiles
       let again := (Action.readSnapshot path >>= writeSnapshot path) written.files
       written.result = .ok () ∧ (Action.readSnapshot path written.files).result = .ok escapesSample ∧
         again.result = .ok () ∧
           ∃ bytes, written.files.bytes path = .ok bytes ∧ again.files.bytes path = .ok bytes) := by
  have hpath : (outsideFiles.write (Path.ofText "/w/out/content-snapshot.json") []).2 = .ok () := by decide +kernel
  exact ⟨escapesSample_isPlain, hpath, readSnapshot_writeSnapshot escapesSample_isPlain hpath⟩

end Project

end Bilingual

/-
# Free names and taken ones

A call that creates, writes or removes a file in a folder asks three things: whether the path is
accepted (`refusal?_join_eq_none`), whether names may come to the folder and go, and what stands
under the name.  If the first two are granted, the third decides alone.  Where nothing stands the
name is found free (`Leads.locate_free`), else what stands there is found, be it a link
(`Leads.locate_taken`).  So a file is created exactly under a free name (`Leads.create_eq`), and
what is written or removed there is known (`Leads.write_free`, `Leads.remove_free`).
-/

import JobSpool.Proofs.Edits

namespace JobSpool

/-- A path into a folder is the folder's path, a slash and the name at most. -/
theorem Path.utf8ByteSize_join_le {folder : Path} (hf : folder.text.toList ≠ []) {name : String}
    (hn : IsStep name) :
    (folder.join name).text.utf8ByteSize ≤ folder.text.utf8ByteSize + 1 + name.utf8ByteSize := by
  have hslash : "/".utf8ByteSize = 1 := rfl
  rw [join_eq hf hn]
  split
  · rw [String.utf8ByteSize_append]
    omega
  · rw [String.utf8ByteSize_append, String.utf8ByteSize_append]
    omega

namespace Files.Tree

/-- **A path into a folder is accepted** if the folder's path is, the name has no null character,
and both together are short enough. -/
theorem refusal?_join_eq_none {folder : Path} (hf : refusal? folder = none) {name : String}
    (hn : Path.IsStep name) (hnull : '\x00' ∉ name.toList)
    (hshort : (folder.join name).text.utf8ByteSize < pathLimit) :
    refusal? (folder.join name) = none := by
  have hnil := text_ne_nil_of_refusal? hf
  have hempty := Path.isEmpty_eq_false (Path.text_join_ne_nil hnil hn)
  have hfolder : '\x00' ∉ folder.text.toList := by
    intro hmem
    simp [refusal?, hmem] at hf
  have hjoin : '\x00' ∉ (folder.join name).text.toList := by
    rw [Path.join_eq hnil hn]
    split <;> simp [hfolder, hnull]
  rw [refusal?, hempty]
  simp [hjoin, Nat.not_le.2 hshort]

namespace Leads

variable {t : Tree} {folder : Path} {place : Place} {mode : Nat} {name : String}

/-! ### What a name is found to be -/

/-- A free name of a folder is found vacant, whatever is looked for. -/
theorem locate_free (h : t.Leads folder place mode) (hn : (Name.text name).IsLegal)
    (hr : refusal? (folder.join name) = none) (hm : (Object.folder mode).maySearch = true)
    (hfree : t.at? (place ++ [.text name]) = none) {aim : Aim} :
    t.locate aim (folder.join name) = .ok (.vacant place name) := by
  obtain ⟨hstep, hsize⟩ := hn
  obtain ⟨jump, hlocate⟩ := h.exists_locate hstep hr aim
  have hwalk : walkWith jump t aim false place [.down name] = .ok (.vacant place name) := by
    simp [walkWith, h.maySearch.trans hm, hfree, Nat.not_lt.2 hsize]
  rw [hlocate, hwalk]
  rfl

/-- What has the name is found, if links are not followed. -/
theorem locate_taken (h : t.Leads folder place mode) {o : Object}
    (hat : t.at? (place ++ [.text name]) = some o) (hr : refusal? (folder.join name) = none)
    (hm : (Object.folder mode).maySearch = true) {aim : Aim} (haim : aim.follows = false) :
    t.locate aim (folder.join name) = .ok (.taken (place ++ [.text name]) o) := by
  obtain ⟨hstep, hsize⟩ := h.sound.isLegal hat
  obtain ⟨jump, hlocate⟩ := h.exists_locate hstep hr aim
  have hwalk : walkWith jump t aim false place [.down name]
      = .ok (.taken (place ++ [.text name]) o) := by
    cases o <;> simp [walkWith, h.maySearch.trans hm, hat, haim, Nat.not_lt.2 hsize]
  rw [hlocate, hwalk]
  rfl

/-! ### What is done under it -/

/-- **Whether a file is created** depends on whether something has its name, and on nothing else. -/
theorem create_eq (h : t.Leads folder place mode) (hn : (Name.text name).IsLegal)
    (hr : refusal? (folder.join name) = none) (hm : t.mayChange place = true) (now : Instant) :
    t.create (folder.join name) now =
      match t.at? (place ++ [.text name]) with
      | some _ => .error (.system .exists)
      | none => .ok (t.put (place ++ [.text name]) (.file ⟨ByteArray.empty, fileMode, now⟩)) := by
  have hsearch := h.maySearch_of_mayChange hm
  have hnewFile : Aim.newFile.follows = false := rfl
  cases hat : t.at? (place ++ [.text name]) with
  | some o => simp only [create, h.locate_taken hat hr hsearch hnewFile]
  | none => simp only [create, h.locate_free hn hr hsearch hat, add, hm, if_true]

/-- **Where nothing stands, a new file is written.** -/
theorem write_free (h : t.Leads folder place mode) (hn : (Name.text name).IsLegal)
    (hr : refusal? (folder.join name) = none) (hm : t.mayChange place = true)
    (hfree : t.at? (place ++ [.text name]) = none) (content : ByteArray) (now : Instant) :
    t.write (folder.join name) content now
      = .ok (t.put (place ++ [.text name]) (.file ⟨content, fileMode, now⟩)) := by
  have hsearch := h.maySearch_of_mayChange hm
  simp only [write, h.locate_free hn hr hsearch hfree, add, hm, if_true]

/-- **A file that may be written is overwritten,** and keeps its permissions. -/
theorem write_file (h : t.Leads folder place mode) {f : File}
    (hr : refusal? (folder.join name) = none) (hm : (Object.folder mode).maySearch = true)
    (hf : t.fileAt? place name = some f) (hwrite : (Object.file f).mayWrite = true)
    (content : ByteArray) (now : Instant) :
    t.write (folder.join name) content now
      = .ok (t.put (place ++ [.text name]) (.file ⟨content, f.mode, now⟩)) := by
  simp only [write, h.locate_file hf hr hm, hwrite, if_true]

/-- Where nothing stands, nothing is removed. -/
theorem remove_free (h : t.Leads folder place mode) (hn : (Name.text name).IsLegal)
    (hr : refusal? (folder.join name) = none) (hm : (Object.folder mode).maySearch = true)
    (hfree : t.at? (place ++ [.text name]) = none) :
    t.remove (folder.join name) = .error (.system .noEntry) := by
  simp [remove, h.locate_free hn hr hm hfree, endsInName_join h.text_ne_nil hn.1]

end Leads
end Files.Tree
end JobSpool

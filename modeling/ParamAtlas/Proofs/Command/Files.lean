/-
# Writing a file and finding it

A file that is written in the place of another, or created, changes little: one number
stands for other bytes, or a new number stands for a file and one directory has one more
name in it (`Kept`).  A name that was there keeps its meaning, and so does a link, so
every word leads where it led before (`Keeps.locate`).  The word for the new file led to
where there was nothing of its name, and leads to the file now (`Settles`).

| after writing to an outlet | |
| --- | --- |
| the word for it | leads to the file |
| the file | holds the bytes |
| any other node | is as it was, but for the name in its directory |

These are the statements of `Rewritten` (`rewritten_put`).
-/

import ParamAtlas.Command.Access

namespace ParamAtlas

/-- What stands under a number stays, in the part that ways depend on: a file may change
its bytes, a number without a node may become that of a file, and a directory may get a
name that it did not have. -/
inductive Kept : Option Node → Option Node → Prop
  | same (node : Option Node) : Kept node node
  | file (b b' : Bytes) (rights : Rights) :
    Kept (some ⟨.file b, rights⟩) (some ⟨.file b', rights⟩)
  | fresh (b : Bytes) (rights : Rights) : Kept none (some ⟨.file b, rights⟩)
  | entry {above : Nat} {entries : List (String × Nat)} {rights : Rights} {name : String}
      (i : Nat) (h : entries.lookup name = none) :
    Kept (some ⟨.directory above entries, rights⟩)
      (some ⟨.directory above (entries ++ [(name, i)]), rights⟩)

namespace FileSystem

/-- All nodes of a file system are kept in another one. -/
structure Keeps (fs fs' : FileSystem) : Prop where
  root : fs'.root = fs.root
  start : fs'.start = fs.start
  nodes : ∀ i : Nat, Kept fs.nodes[i]? fs'.nodes[i]?

variable {fs fs' : FileSystem} {i j : Nat}

/-! ## Ways in a file system that is kept -/

/-- A link still stands for its word. -/
theorem Keeps.link?_eq (h : fs.Keeps fs') (i : Nat) : fs'.link? i = fs.link? i := by
  have hkept := h.nodes i
  unfold link?
  generalize fs.nodes[i]? = old, fs'.nodes[i]? = new at hkept
  cases hkept <;> rfl

/-- A directory is still one. -/
theorem Keeps.isDirectory (h : fs.Keeps fs') (hi : fs.isDirectory i) : fs'.isDirectory i := by
  have hkept := h.nodes i
  unfold FileSystem.isDirectory at hi ⊢
  generalize fs.nodes[i]? = old, fs'.nodes[i]? = new at hkept hi
  cases hkept <;> exact hi

/-- A directory can still be entered, and its names mean what they meant. -/
theorem Keeps.enter (h : fs.Keeps fs') {above : Nat} {entries : List (String × Nat)}
    (hi : fs.enter i = .ok (above, entries)) :
    ∃ entries', fs'.enter i = .ok (above, entries') ∧
      ∀ n j, entries.lookup n = some j → entries'.lookup n = some j := by
  have hkept := h.nodes i
  unfold FileSystem.enter at hi ⊢
  generalize fs.nodes[i]? = old, fs'.nodes[i]? = new at hkept hi
  cases hkept with
  | same => exact ⟨entries, hi, fun _ _ hn => hn⟩
  | file => cases hi
  | fresh => cases hi
  | entry k hname =>
    dsimp only at hi ⊢
    split at hi
    · cases hi
    · cases hi
      refine ⟨_, rfl, fun n j hn => ?_⟩
      rw [List.lookup_append, hn]
      rfl

/-- What can be entered is a directory that lets names be looked up. -/
theorem enter_eq_ok {above : Nat} {entries : List (String × Nat)}
    (h : fs.enter i = .ok (above, entries)) :
    ∃ rights, fs.nodes[i]? = some ⟨.directory above entries, rights⟩ ∧ rights.lookup = none := by
  unfold enter at h
  split at h
  · rename_i rights hi
    split at h
    · cases h
    · rename_i hlookup
      cases h
      exact ⟨rights, hi, hlookup⟩
  · cases h

/-- How a name is looked up. -/
theorem step_name {n : String} {above : Nat} {entries : List (String × Nat)}
    (hi : fs.enter i = .ok (above, entries)) (hn : n.utf8ByteSize ≤ Way.longestName) :
    fs.step i (.name n) = .ok ((entries.lookup n).elim (.vacant i n) .node) := by
  simp only [step, hi, bind, Except.bind]
  exact if_neg (Nat.not_lt.2 hn)

/-- What a name that is looked up says of the directory. -/
theorem step_name_eq_ok {n : String} {t : Target} (h : fs.step i (.name n) = .ok t) :
    ∃ above entries, fs.enter i = .ok (above, entries) ∧ n.utf8ByteSize ≤ Way.longestName ∧
      t = (entries.lookup n).elim (.vacant i n) .node := by
  simp only [step] at h
  cases hi : fs.enter i with
  | error f =>
    rw [hi] at h
    cases h
  | ok found =>
    obtain ⟨above, entries⟩ := found
    simp only [hi, bind, Except.bind] at h
    split at h
    · cases h
    · rename_i hn
      cases h
      exact ⟨above, entries, rfl, Nat.not_lt.1 hn, rfl⟩

/-- Only a name can lead to where there is nothing. -/
theorem step_eq_vacant {s : Step} {dir : Nat} {n : String}
    (h : fs.step i s = .ok (.vacant dir n)) :
    s = .name n ∧ dir = i ∧ n.utf8ByteSize ≤ Way.longestName ∧
      ∃ above entries, fs.enter i = .ok (above, entries) ∧ entries.lookup n = none := by
  cases s with
  | slash =>
    simp only [step] at h
    split at h <;> cases h
  | here =>
    simp only [step] at h
    cases hi : fs.enter i <;> rw [hi] at h <;> cases h
  | up =>
    simp only [step] at h
    cases hi : fs.enter i <;> rw [hi] at h <;> cases h
  | name m =>
    obtain ⟨above, entries, hi, hm, ht⟩ := step_name_eq_ok h
    cases hlookup : entries.lookup m with
    | some j =>
      rw [hlookup] at ht
      cases ht
    | none =>
      rw [hlookup] at ht
      cases ht
      exact ⟨rfl, rfl, hm, above, entries, hi, hlookup⟩

/-- **A step to a node** leads there still. -/
theorem Keeps.step (h : fs.Keeps fs') {s : Step} (hstep : fs.step i s = .ok (.node j)) :
    fs'.step i s = .ok (.node j) := by
  cases s with
  | slash =>
    simp only [FileSystem.step] at hstep ⊢
    split at hstep
    · rename_i hdir
      rw [if_pos (h.isDirectory hdir)]
      exact hstep
    · cases hstep
  | here | up =>
    simp only [FileSystem.step] at hstep ⊢
    cases hi : fs.enter i with
    | error f =>
      rw [hi] at hstep
      cases hstep
    | ok found =>
      obtain ⟨entries', hi', -⟩ := h.enter hi
      rw [hi] at hstep
      rw [hi']
      exact hstep
  | name n =>
    obtain ⟨above, entries, hi, hn, ht⟩ := step_name_eq_ok hstep
    obtain ⟨entries', hi', hlookup⟩ := h.enter hi
    cases hj : entries.lookup n with
    | none =>
      rw [hj] at ht
      cases ht
    | some k =>
      rw [hj] at ht
      cases ht
      rw [step_name hi' hn, hlookup n _ hj]
      rfl

/-- A way goes on from what a step leads to. -/
theorem locate_cons_of_node {creates : Bool} {links : Nat} {s : Step} {rest : List Step}
    (hslash : ¬(creates ∧ s.isName ∧ rest = [.slash])) (hstep : fs.step i s = .ok (.node j))
    (hlink : fs.link? j = none) :
    fs.locate creates links i (s :: rest) = fs.locate creates links j rest := by
  rw [FileSystem.locate, if_neg hslash, hstep]
  simp only [hlink]

/-- At a link a way goes on with what the link stands for. -/
theorem locate_cons_of_link {creates : Bool} {links : Nat} {s : Step} {rest : List Step}
    {word : String} {way : Way} (hslash : ¬(creates ∧ s.isName ∧ rest = [.slash]))
    (hstep : fs.step i s = .ok (.node j)) (hlink : fs.link? j = some word)
    (hway : Way.ofWord word = .ok way) :
    fs.locate creates (links + 1) i (s :: rest) =
      fs.locate creates links (fs.origin i way) (way.steps ++ rest) := by
  rw [FileSystem.locate, if_neg hslash, hstep]
  simp only [hlink, hway]

/-- The end of a way is a node now: it was one before, or its name has been given to
something other than a link. -/
inductive Settles (fs : FileSystem) : Target → Nat → Prop
  | node (i : Nat) : Settles fs (.node i) i
  | vacant {dir i : Nat} {name : String} (h : fs.step dir (.name name) = .ok (.node i))
      (hlink : fs.link? i = none) : Settles fs (.vacant dir name) i

/-- **A way leads where it led,** over the same links. -/
theorem Keeps.locate (h : fs.Keeps fs') {creates : Bool} {links : Nat} {steps : List Step}
    {t : Target} (hlocate : fs.locate creates links i steps = .ok t) (ht : fs'.Settles t j) :
    fs'.locate false links i steps = .ok (.node j) := by
  fun_induction fs.locate creates links i steps with
  | case1 links i =>
    cases hlocate
    cases ht
    rw [FileSystem.locate]
  | case5 links i s dir n hstep _ =>
    cases hlocate
    obtain ⟨rfl, rfl, -⟩ := step_eq_vacant hstep
    cases ht with
    | vacant hnew hlink =>
      rw [locate_cons_of_node (by simp) hnew hlink, FileSystem.locate]
  | case7 links i s rest _ k hstep hlink ih =>
    rw [locate_cons_of_node (by simp) (h.step hstep) ((h.link?_eq k).trans hlink)]
    exact ih hlocate
  | case10 i s rest _ k hstep word hlink links way hway ih =>
    rw [locate_cons_of_link (by simp) (h.step hstep) ((h.link?_eq k).trans hlink) hway]
    have horigin : fs'.origin i way = fs.origin i way := by rw [origin, origin, h.root]
    rw [horigin]
    exact ih hlocate
  -- The way leads nowhere.
  | case2 | case3 | case4 | case6 | case8 | case9 => cases hlocate

/-- Where a way ends in nothing, the directory has no such name. -/
theorem vacant_of_locate {creates : Bool} {links dir : Nat} {steps : List Step} {n : String}
    (h : fs.locate creates links i steps = .ok (.vacant dir n)) :
    n.utf8ByteSize ≤ Way.longestName ∧
      ∃ above entries, fs.enter dir = .ok (above, entries) ∧ entries.lookup n = none := by
  fun_induction fs.locate creates links i steps with
  | case5 links i s dir' n' hstep _ =>
    cases h
    obtain ⟨-, rfl, hn, hvacant⟩ := step_eq_vacant hstep
    exact ⟨hn, hvacant⟩
  | case7 links i s rest _ k hstep hlink ih => exact ih h
  | case10 i s rest _ k hstep word hlink links way hway ih => exact ih h
  | case1 | case2 | case3 | case4 | case6 | case8 | case9 => cases h

/-- A word leads where its way does. -/
theorem target_eq_ok_iff {creates : Bool} {word : String} {t : Target} :
    fs.target creates word = .ok t ↔ ∃ way, Way.ofWord word = .ok way ∧
      fs.locate creates Way.mostLinks (fs.origin fs.start way) way.steps = .ok t := by
  unfold target
  cases Way.ofWord word <;> simp [bind, Except.bind]

/-- What is found is the node at the end of the way. -/
theorem find_eq_ok_iff {word : String} :
    fs.find word = .ok i ↔ fs.target false word = .ok (.node i) := by
  unfold find
  cases fs.target false word with
  | error f => simp [bind, Except.bind]
  | ok t => cases t <;> simp [bind, Except.bind]

/-- **A word leads where it led,** also where there is something now that was not before. -/
theorem Keeps.find (h : fs.Keeps fs') {creates : Bool} {word : String} {t : Target}
    (htarget : fs.target creates word = .ok t) (ht : fs'.Settles t j) : fs'.find word = .ok j := by
  obtain ⟨way, hway, hlocate⟩ := target_eq_ok_iff.1 htarget
  have horigin : fs'.origin fs'.start way = fs.origin fs.start way := by
    rw [origin, origin, h.root, h.start]
  exact find_eq_ok_iff.2 (target_eq_ok_iff.2 ⟨way, hway, horigin ▸ h.locate hlocate ht⟩)

/-! ## What writing changes -/

/-- Only the number that is written to gets other bytes. -/
theorem getElem?_rewrite (fs : FileSystem) (i j : Nat) (b : Bytes) :
    (fs.rewrite i b).nodes[j]? =
      if i = j then fs.nodes[j]?.map fun node => { node with kind := .file b }
      else fs.nodes[j]? := by
  rw [rewrite, Array.getElem?_modify]

/-- Only a new number and a directory are changed for a new file. -/
theorem getElem?_create (fs : FileSystem) (dir j : Nat) (name : String) (b : Bytes) :
    (fs.create dir name b).nodes[j]? =
      if j = fs.nodes.size then some ⟨.file b, fs.newFile⟩
      else if dir = j then fs.nodes[j]?.map fun node =>
        { node with kind := node.kind.withEntry name fs.nodes.size }
      else fs.nodes[j]? := by
  simp only [create, Array.getElem?_push, Array.size_modify, Array.getElem?_modify]

/-- What the number of the new file stands for, -/
theorem getElem?_create_size (fs : FileSystem) (dir : Nat) (name : String) (b : Bytes) :
    (fs.create dir name b).nodes[fs.nodes.size]? = some ⟨.file b, fs.newFile⟩ := by
  rw [getElem?_create, if_pos rfl]

/-- and what the number of its directory does. -/
theorem getElem?_create_dir {dir above : Nat} {entries : List (String × Nat)} {rights : Rights}
    (hdir : fs.nodes[dir]? = some ⟨.directory above entries, rights⟩) (name : String) (b : Bytes) :
    (fs.create dir name b).nodes[dir]? =
      some ⟨.directory above (entries ++ [(name, fs.nodes.size)]), rights⟩ := by
  have hlt : dir < fs.nodes.size := (Array.getElem?_eq_some_iff.1 hdir).1
  rw [getElem?_create, if_neg (Nat.ne_of_lt hlt), if_pos rfl, hdir]
  rfl

/-- **A new file is what its name leads to.** -/
theorem settles_create {dir above : Nat} {entries : List (String × Nat)} {rights : Rights}
    {name : String} (hdir : fs.nodes[dir]? = some ⟨.directory above entries, rights⟩)
    (hrights : rights.lookup = none) (hlength : name.utf8ByteSize ≤ Way.longestName)
    (hname : entries.lookup name = none) (b : Bytes) :
    (fs.create dir name b).Settles (.vacant dir name) fs.nodes.size := by
  have hentered : (fs.create dir name b).enter dir =
      .ok (above, entries ++ [(name, fs.nodes.size)]) := by
    rw [enter, getElem?_create_dir hdir]
    simp only [hrights]
  refine .vacant ?_ (by rw [link?, getElem?_create_size])
  rw [step_name hentered hlength, List.lookup_append, hname]
  simp

/-- Other bytes in a file leave all ways as they are, -/
theorem keeps_rewrite {b : Bytes} {rights : Rights} (hi : fs.nodes[i]? = some ⟨.file b, rights⟩)
    (b' : Bytes) : fs.Keeps (fs.rewrite i b') where
  root := rfl
  start := rfl
  nodes j := by
    rw [getElem?_rewrite]
    split
    · rename_i hij
      rw [← hij, hi]
      exact .file b b' rights
    · exact .same _

/-- and so does a new name in a directory. -/
theorem keeps_create {dir above : Nat} {entries : List (String × Nat)} {rights : Rights}
    {name : String} (hdir : fs.nodes[dir]? = some ⟨.directory above entries, rights⟩)
    (hname : entries.lookup name = none) (b : Bytes) : fs.Keeps (fs.create dir name b) where
  root := rfl
  start := rfl
  nodes j := by
    rw [getElem?_create]
    split
    · rename_i hj
      rw [Array.getElem?_eq_none_iff.2 (Nat.le_of_eq hj.symm)]
      exact .fresh b _
    · split
      · rename_i hij
        rw [← hij, hdir]
        exact .entry _ hname
      · exact .same _

/-! ## Outlets -/

/-- The outlet of a word is the one at the end of its way. -/
theorem outlet_eq_ok_iff {word : String} {o : Outlet} :
    fs.outlet word = .ok o ↔ ∃ t, fs.target true word = .ok t ∧ fs.outletAt t = .ok o := by
  unfold outlet
  cases fs.target true word <;> simp [bind, Except.bind]

/-- The outlet at a file is that file. -/
theorem outletAt_eq_file {t : Target} (h : fs.outletAt t = .ok (.file i)) :
    t = .node i ∧ ∃ b rights, fs.nodes[i]? = some ⟨.file b, rights⟩ := by
  cases t with
  | vacant dir name =>
    simp only [outletAt] at h
    split at h <;> cases h
  | node k =>
    simp only [outletAt] at h
    split at h
    · cases h
    · rename_i kind rights hk
      split at h <;> cases h
      exact ⟨rfl, _, _, hk⟩

/-- A new file is made where there is nothing of its name. -/
theorem outletAt_eq_fresh {t : Target} {dir : Nat} {name : String}
    (h : fs.outletAt t = .ok (.fresh dir name)) : t = .vacant dir name := by
  cases t with
  | vacant dir' name' =>
    simp only [outletAt] at h
    split at h <;> cases h
    rfl
  | node k =>
    simp only [outletAt] at h
    split at h
    · cases h
    · split at h <;> cases h

/-- The number of the file in an outlet, once it has been written. -/
def fileIn (fs : FileSystem) : Outlet → Option Nat
  | .file i => some i
  | .fresh .. => some fs.nodes.size
  | .device _ => none

/-- **One file has been written** through a word, and nothing else has changed. -/
structure Rewritten (fs fs' : FileSystem) (word : String) (i : Nat) (b : Bytes) : Prop where
  /-- The word leads to the file. -/
  leads : fs'.find word = .ok i
  holds : ∃ rights, fs'.nodes[i]? = some ⟨.file b, rights⟩
  /-- Every node but this one and directories is as it was. -/
  others : ∀ j : Nat, j ≠ i → fs.isDirectory j = false → fs'.nodes[j]? = fs.nodes[j]?
  /-- A directory is as it was, or has got a name for the file, which is new then. -/
  directories : ∀ (j above : Nat) entries rights,
    fs.nodes[j]? = some ⟨.directory above entries, rights⟩ →
      fs'.nodes[j]? = fs.nodes[j]? ∨
        fs.nodes[i]? = none ∧ ∃ name, entries.lookup name = none ∧
          fs'.nodes[j]? = some ⟨.directory above (entries ++ [(name, i)]), rights⟩
  /-- Words lead where they led. -/
  words : ∀ w j, fs.find w = .ok j → fs'.find w = .ok j

/-- Words lead where they led. -/
theorem Keeps.words (h : fs.Keeps fs') (w : String) (j : Nat) (hw : fs.find w = .ok j) :
    fs'.find w = .ok j :=
  h.find (find_eq_ok_iff.1 hw) (.node j)

/-- Writing in the place of a file changes that file alone, -/
theorem rewritten_of_file {word : String} {t : Target} (ht : fs.target true word = .ok t)
    (h : fs.outletAt t = .ok (.file i)) (b : Bytes) :
    fs.Rewritten (fs.rewrite i b) word i b := by
  obtain ⟨rfl, old, rights, hi⟩ := outletAt_eq_file h
  have hkeeps := keeps_rewrite hi b
  refine ⟨hkeeps.find ht (.node i), ⟨rights, ?_⟩, fun j hj _ => ?_, fun j above entries _ hj => ?_,
    hkeeps.words⟩
  · rw [getElem?_rewrite, if_pos rfl, hi]
    rfl
  · rw [getElem?_rewrite, if_neg hj.symm]
  · have hij : i ≠ j := fun hij => by
      rw [← hij, hi] at hj
      cases hj
    exact .inl (by rw [getElem?_rewrite, if_neg hij])

/-- and writing a new one adds it to its directory. -/
theorem rewritten_of_fresh {word : String} {t : Target} {dir : Nat} {name : String}
    (ht : fs.target true word = .ok t) (h : fs.outletAt t = .ok (.fresh dir name)) (b : Bytes) :
    fs.Rewritten (fs.create dir name b) word fs.nodes.size b := by
  obtain rfl := outletAt_eq_fresh h
  obtain ⟨way, -, hlocate⟩ := target_eq_ok_iff.1 ht
  obtain ⟨hname, above, entries, henter, hlookup⟩ := vacant_of_locate hlocate
  obtain ⟨rights, hdir, hrights⟩ := enter_eq_ok henter
  have hkeeps := keeps_create hdir hlookup b
  have hsettles := settles_create hdir hrights hname hlookup b
  refine ⟨hkeeps.find ht hsettles, ⟨_, getElem?_create_size fs dir name b⟩, fun j hj hfile => ?_,
    fun j above' entries' _ hj => ?_, hkeeps.words⟩
  · have hne : dir ≠ j := fun hij => by
      rw [← hij, isDirectory, hdir] at hfile
      cases hfile
    rw [getElem?_create, if_neg hj, if_neg hne]
  · by_cases hij : dir = j
    · subst hij
      cases hdir.symm.trans hj
      exact .inr ⟨Array.getElem?_eq_none_iff.2 (Nat.le_refl _), name, hlookup,
        getElem?_create_dir hdir name b⟩
    · have hsize : j ≠ fs.nodes.size := Nat.ne_of_lt (Array.getElem?_eq_some_iff.1 hj).1
      exact .inl (by rw [getElem?_create, if_neg hsize, if_neg hij])

/-- **Writing to an outlet** changes the file in it and nothing else, and the word that led
to the outlet leads to the file. -/
theorem rewritten_put {word : String} {o : Outlet} (h : fs.outlet word = .ok o)
    (hi : fs.fileIn o = some i) (b : Bytes) : fs.Rewritten (fs.put b o) word i b := by
  obtain ⟨t, ht, houtlet⟩ := outlet_eq_ok_iff.1 h
  cases o with
  | file k =>
    cases hi
    exact rewritten_of_file ht houtlet b
  | fresh dir name =>
    cases hi
    exact rewritten_of_fresh ht houtlet b
  | device v => cases hi

/-- A device keeps nothing. -/
theorem put_of_fileIn_eq_none {o : Outlet} (h : fs.fileIn o = none) (b : Bytes) :
    fs.put b o = fs := by
  cases o with
  | file | fresh => cases h
  | device v => rfl

end FileSystem
end ParamAtlas

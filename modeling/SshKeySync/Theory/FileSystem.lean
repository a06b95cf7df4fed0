import Mathlib.Logic.Function.Basic

/-! A file system as names over inodes. An open handle follows its inode, opening with
truncation empties the inode a name has, and renaming replaces a name in one step. -/
namespace FileSystem
variable {π β : Type}

structure Disk (π β : Type) where
  name : π → Option Nat
  data : Nat → List β
  /-- The next inode to be created. -/
  next : Nat
  fresh : ∀ p i, name p = some i → i < next

namespace Disk

def read (d : Disk π β) (p : π) : Option (List β) := (d.name p).map d.data

/-- Two names do not lead to one inode. -/
def Separate (d : Disk π β) (p q : π) : Prop := ∀ i, d.name p = some i → d.name q ≠ some i

/-- Bytes written at an offset; a gap before it is filled. -/
def overlay (fill : β) (old : List β) (offset : Nat) (bytes : List β) : List β :=
  old.take offset ++ List.replicate (offset - old.length) fill ++ bytes ++
    old.drop (offset + bytes.length)

def write (d : Disk π β) (fill : β) (i offset : Nat) (bytes : List β) : Disk π β :=
  { d with data := Function.update d.data i (overlay fill (d.data i) offset bytes) }

def truncate (d : Disk π β) (i : Nat) : Disk π β := { d with data := Function.update d.data i [] }

variable [DecidableEq π]

private theorem fresh_update {d : Disk π β} {p : π} {o : Option Nat} {bound : Nat}
    (ho : ∀ i, o = some i → i < bound) (hle : d.next ≤ bound) :
    ∀ q i, Function.update d.name p o q = some i → i < bound := by
  intro q i hi
  by_cases hq : q = p
  · rw [hq, Function.update_self] at hi
    exact ho i hi
  · rw [Function.update_of_ne hq] at hi
    exact Nat.lt_of_lt_of_le (d.fresh q i hi) hle

def create (d : Disk π β) (p : π) : Disk π β where
  name := Function.update d.name p (some d.next)
  data := Function.update d.data d.next []
  next := d.next + 1
  fresh := fresh_update (fun i hi => by cases hi; exact Nat.lt_succ_self _) (Nat.le_succ _)

/-- Open for writing with `create` and `truncate`; the inode of the handle is returned. -/
def openTruncate (d : Disk π β) (p : π) : Nat × Disk π β :=
  match d.name p with
  | some i => (i, d.truncate i)
  | none => (d.next, d.create p)

def unlink (d : Disk π β) (p : π) : Disk π β :=
  { d with
    name := Function.update d.name p none
    fresh := fresh_update nofun (Nat.le_refl _) }

def link (d : Disk π β) (q : π) (i : Nat) (hi : i < d.next) : Disk π β :=
  { d with
    name := Function.update d.name q (some i)
    fresh := fresh_update (fun j hj => by cases hj; exact hi) (Nat.le_refl _) }

/-- Fails when the old name is gone, and does nothing between two names of one inode. -/
def rename (d : Disk π β) (p q : π) : Option (Disk π β) :=
  match h : d.name p with
  | none => none
  | some i => if d.name q = some i then some d else some ((d.unlink p).link q i (d.fresh p i h))

variable {d : Disk π β} {p q : π} {i : Nat}

/-- What is written at the end is appended. -/
theorem overlay_at_end (fill : β) (old bytes : List β) :
    overlay fill old old.length bytes = old ++ bytes := by
  rw [overlay, List.take_length, Nat.sub_self, List.drop_eq_nil_of_le (by omega)]
  simp

/-- The name that is opened leads to the handle's inode, which is empty. -/
theorem openTruncate_opened {i : Nat} {d' : Disk π β} (h : d.openTruncate p = (i, d')) :
    d'.name p = some i ∧ d'.data i = [] := by
  unfold openTruncate at h
  split at h
  · rename_i hp
    cases h
    exact ⟨hp, Function.update_self ..⟩
  · cases h
    exact ⟨Function.update_self .., Function.update_self ..⟩

/-- A name of another inode keeps its content, and stays apart. -/
theorem openTruncate_frame {d' : Disk π β} (h : d.openTruncate p = (i, d')) (hq : q ≠ p)
    (hs : d.Separate p q) : d'.read q = d.read q ∧ d'.Separate p q := by
  unfold openTruncate at h
  split at h
  · rename_i j hp
    cases h
    refine ⟨?_, hs⟩
    cases hname : d.name q with
    | none => simp [read, truncate, hname]
    | some k =>
      have hne : k ≠ i := by
        rintro rfl
        exact hs k hp hname
      simp [read, truncate, hname, Function.update_of_ne hne]
  · cases h
    constructor
    · cases hname : d.name q with
      | none => simp [read, create, Function.update_of_ne hq, hname]
      | some k =>
        have hne : k ≠ d.next := Nat.ne_of_lt (d.fresh q k hname)
        simp [read, create, Function.update_of_ne hq, hname, Function.update_of_ne hne]
    · intro k hk hk'
      simp only [create, Function.update_self, Function.update_of_ne hq] at hk hk'
      cases hk
      exact Nat.lt_irrefl _ (d.fresh q _ hk')

omit [DecidableEq π] in
/-- Writing through a handle on another inode keeps a name's content. -/
theorem write_frame (fill : β) (offset : Nat) (bytes : List β) (hq : d.name q ≠ some i) :
    (d.write fill i offset bytes).read q = d.read q := by
  cases hname : d.name q with
  | none => simp [read, write, hname]
  | some k =>
    have hne : k ≠ i := by
      rintro rfl
      exact hq hname
    simp [read, write, hname, Function.update_of_ne hne]

/-- After a rename the new name has the content of the old one, which is gone. -/
theorem rename_read {d' : Disk π β} (h : d.rename p q = some d') (hpq : p ≠ q)
    (hs : d.Separate p q) : d'.read q = d.read p ∧ d'.name p = none := by
  unfold rename at h
  split at h
  · cases h
  · rename_i i hp
    rw [if_neg (hs i hp)] at h
    cases h
    refine ⟨?_, ?_⟩
    · simp [read, link, unlink, hp]
    · simp [link, unlink, Function.update_of_ne hpq]

end Disk
end FileSystem

import SshKeySync.Theory.Records

/-! OpenSSH public keys as one line of words. Normalizing keeps the words and nothing
of the spacing, so what it returns is a line that normalizes to itself. -/
namespace SshKeySync.Keys
open RustStd Records

structure PublicKeyRecord where
  algorithm : Str
  keyData : Str
  comment : Option Str
  original : Str
  deriving DecidableEq

inductive PublicKeyError where
  | emptyInput
  | invalidFormat
  | unsupportedAlgorithm
  | readFailed (path : Str)
  deriving DecidableEq

def supportedAlgorithms : List Str :=
  ["ssh-ed25519".toList, "ssh-rsa".toList, "ecdsa-sha2-nistp256".toList,
    "ecdsa-sha2-nistp384".toList, "ecdsa-sha2-nistp521".toList]

def isSupportedAlgorithm (value : Str) : Bool := value ∈ supportedAlgorithms

def parsePublicKey (input : Str) : Except PublicKeyError PublicKeyRecord :=
  if trim input = [] then .error .emptyInput
  else match splitWhitespace (trim input) with
    | algorithm :: keyData :: rest =>
      if ¬ isSupportedAlgorithm algorithm then .error .unsupportedAlgorithm
      else if keyData = [] then .error .invalidFormat
      else .ok ⟨algorithm, keyData, if rest = [] then none else some (joinWords rest), trim input⟩
    | _ => .error .invalidFormat

def normalizePublicKey (input : Str) : Except PublicKeyError Str := do
  let record ← parsePublicKey input
  let normalized := record.algorithm ++ ' ' :: record.keyData
  match record.comment with
  | some comment => .ok (normalized ++ ' ' :: trim comment)
  | none => .ok normalized

/-- `content` is what reading the file gives, `none` when that fails. -/
def readLocalPublicKey (path : Str) (content : Option Str) : Except PublicKeyError Str := do
  let content ← okOr content (.readFailed path)
  normalizePublicKey content

/-- The words of an accepted key. -/
structure KeyWords where
  algorithm : Str
  keyData : Str
  comment : List Str
  supported : isSupportedAlgorithm algorithm
  word_of_mem : ∀ w ∈ keyData :: comment, Word w

namespace KeyWords
variable (k : KeyWords)

def words : List Str := k.algorithm :: k.keyData :: k.comment

def text : Str := joinWords k.words

theorem algorithm_mem : k.algorithm ∈ supportedAlgorithms := by
  simpa [isSupportedAlgorithm] using k.supported

private theorem word_of_supported : ∀ w ∈ supportedAlgorithms, Word w := by decide

/-- The parts of a key are words. -/
theorem word_of_mem_words : ∀ w ∈ k.words, Word w :=
  List.forall_mem_cons.mpr ⟨word_of_supported _ k.algorithm_mem, k.word_of_mem⟩

/-- A key is a line without surrounding whitespace. -/
theorem wireSafe_text : WireSafe k.text := wireSafe_joinWords k.word_of_mem_words

@[simp] theorem splitWhitespace_text : splitWhitespace k.text = k.words :=
  splitWhitespace_joinWords k.word_of_mem_words

theorem trim_text : trim k.text = k.text := trim_eq_self k.wireSafe_text.2

theorem text_eq : k.text = k.algorithm ++ ' ' :: joinWords (k.keyData :: k.comment) :=
  joinWords_cons_cons _ _ _

/-- No line that starts with a comment sign is a key. -/
theorem head_text_ne_hash : k.text.head? ≠ some '#' := by
  have hall : ∀ w ∈ supportedAlgorithms, w.head? ≠ some '#' ∧ w ≠ [] := by decide
  obtain ⟨hhead, hne⟩ := hall _ k.algorithm_mem
  rwa [text_eq, List.head?_append_of_ne_nil _ hne]

end KeyWords

/-- The accepted inputs are those whose words form a key. -/
theorem parsePublicKey_eq_ok_iff {input : Str} {record : PublicKeyRecord} :
    parsePublicKey input = .ok record ↔ ∃ k : KeyWords, splitWhitespace input = k.words ∧
      record = ⟨k.algorithm, k.keyData, if k.comment = [] then none else some (joinWords k.comment),
        trim input⟩ := by
  rw [← splitWhitespace_trim input]
  have hword := @word_of_mem_splitWhitespace (trim input)
  constructor
  · intro h
    unfold parsePublicKey at h
    split at h
    · cases h
    · split at h
      · rename_i algorithm keyData rest hsplit
        rw [hsplit] at hword
        split at h
        · cases h
        · rename_i hsupported
          rw [if_neg (hword (by simp)).1] at h
          cases h
          exact ⟨⟨algorithm, keyData, rest, not_not.mp hsupported,
            fun w hw => hword (List.mem_cons_of_mem _ hw)⟩, hsplit, rfl⟩
      · cases h
  · rintro ⟨k, hsplit, rfl⟩
    have hne : trim input ≠ [] := by rintro he; rw [he] at hsplit; cases hsplit
    rw [parsePublicKey, if_neg hne, hsplit, KeyWords.words]
    simp only [k.supported, not_true_eq_false, if_false]
    rw [if_neg (k.word_of_mem _ List.mem_cons_self).1]

/-- A text has a normal form exactly when its words are an algorithm, key data and a comment. -/
theorem normalizePublicKey_eq_ok_iff {input key : Str} :
    normalizePublicKey input = .ok key ↔
      ∃ k : KeyWords, splitWhitespace input = k.words ∧ key = k.text := by
  have htext (k : KeyWords) : (match (if k.comment = [] then none else some (joinWords k.comment)) with
      | some comment => .ok (k.algorithm ++ ' ' :: k.keyData ++ ' ' :: trim comment)
      | none => .ok (k.algorithm ++ ' ' :: k.keyData) : Except PublicKeyError Str) = .ok k.text := by
    have hcomment : ∀ w ∈ k.comment, Word w := fun w hw => k.word_of_mem w (List.mem_cons_of_mem _ hw)
    rw [KeyWords.text_eq]
    cases hc : k.comment with
    | nil => simp
    | cons w ws =>
      rw [hc] at hcomment
      simp [joinWords_cons_cons, trim_eq_self (unpadded_joinWords hcomment)]
  rw [normalizePublicKey, bind_eq_ok]
  constructor
  · rintro ⟨record, hrecord, hkey⟩
    obtain ⟨k, hsplit, rfl⟩ := parsePublicKey_eq_ok_iff.mp hrecord
    have := (htext k).symm.trans hkey
    exact ⟨k, hsplit, (Except.ok.inj this).symm⟩
  · rintro ⟨k, hsplit, rfl⟩
    exact ⟨_, parsePublicKey_eq_ok_iff.mpr ⟨k, hsplit, rfl⟩, htext k⟩

/-- A key in normal form is its own normal form. -/
theorem normalizePublicKey_text (k : KeyWords) : normalizePublicKey k.text = .ok k.text :=
  normalizePublicKey_eq_ok_iff.mpr ⟨k, k.splitWhitespace_text, rfl⟩

/-- What normalizing returns normalizes to itself. -/
theorem normalizePublicKey_idempotent {input key : Str} (h : normalizePublicKey input = .ok key) :
    normalizePublicKey key = .ok key := by
  obtain ⟨k, -, rfl⟩ := normalizePublicKey_eq_ok_iff.mp h
  exact normalizePublicKey_text k

/-- Whitespace around a key does not matter. -/
theorem normalizePublicKey_congr {input input' : Str} (h : trim input = trim input') :
    normalizePublicKey input = normalizePublicKey input' := by
  rw [normalizePublicKey, normalizePublicKey, parsePublicKey, parsePublicKey, h]

/-- Normalizing loses no other character. -/
theorem ink_of_normalized {input key : Str} (h : normalizePublicKey input = .ok key) : ink key = ink input := by
  obtain ⟨k, hsplit, rfl⟩ := normalizePublicKey_eq_ok_iff.mp h
  rw [← flatten_splitWhitespace, k.splitWhitespace_text, ← hsplit, flatten_splitWhitespace]

/-- A normal form is a line without surrounding whitespace. -/
theorem wireSafe_of_normalized {input key : Str} (h : normalizePublicKey input = .ok key) :
    WireSafe key := by
  obtain ⟨k, -, rfl⟩ := normalizePublicKey_eq_ok_iff.mp h
  exact k.wireSafe_text

end SshKeySync.Keys

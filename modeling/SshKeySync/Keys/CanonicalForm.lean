import SshKeySync.Keys.PublicKey

/-! The normal form of a public key stands for the words of its input and for nothing else of it. -/
namespace SshKeySync.Keys
open RustStd Records

/-- One line of single-spaced words that names the same key as its input and normalizes to itself. -/
structure CanonicalForm (input key : Str) : Prop where
  newline : '\n' ∉ key
  carriageReturn : '\r' ∉ key
  unpadded : Unpadded key
  singleSpaced : SingleSpaced key
  record : ∃ record record', parsePublicKey input = .ok record ∧ parsePublicKey key = .ok record' ∧
    (∃ rest, key = record.algorithm ++ ' ' :: rest) ∧ record'.algorithm = record.algorithm ∧
    record'.keyData = record.keyData ∧ record'.comment = record.comment
  fixed : normalizePublicKey key = .ok key

/-- No whitespace but blanks. -/
theorem KeyWords.blank_of_mem_text (k : KeyWords) {c : Char} (h : c ∈ k.text) (hc : isWhitespace c) : c = ' ' := by
  rcases mem_joinWords h with hblank | ⟨w, hw, hmem⟩
  · exact hblank
  · cases hc.symm.trans ((k.word_of_mem_words w hw).2 c hmem)

private theorem KeyWords.canonicalForm (k : KeyWords) {input : Str} (h : splitWhitespace input = k.words) :
    CanonicalForm input k.text where
  newline hmem := absurd (k.blank_of_mem_text hmem (by decide)) (by decide)
  carriageReturn hmem := absurd (k.blank_of_mem_text hmem (by decide)) (by decide)
  unpadded := k.wireSafe_text.2
  singleSpaced := singleSpaced_joinWords k.word_of_mem_words
  record := by
    refine ⟨_, _, parsePublicKey_eq_ok_iff.mpr ⟨k, h, rfl⟩,
      parsePublicKey_eq_ok_iff.mpr ⟨k, k.splitWhitespace_text, rfl⟩, ?_, rfl, rfl, rfl⟩
    exact ⟨_, k.text_eq⟩
  fixed := normalizePublicKey_text k

/-- The words of an input that form a key. -/
theorem exists_keyWords_iff {ws : List Str} (hws : ∀ w ∈ ws, Word w) : (∃ k : KeyWords, ws = k.words) ↔
    ∃ algorithm keyData rest, ws = algorithm :: keyData :: rest ∧ isSupportedAlgorithm algorithm := by
  constructor
  · rintro ⟨k, rfl⟩
    exact ⟨_, _, _, rfl, k.supported⟩
  · rintro ⟨algorithm, keyData, rest, rfl, hsupported⟩
    exact ⟨⟨algorithm, keyData, rest, hsupported, (List.forall_mem_cons.mp hws).2⟩, rfl⟩

/-- Normalizing accepts exactly the inputs with two words of which the first is a supported algorithm,
what it returns is canonical, and it is the same for the inputs with the same words alone. -/
theorem normalize_canonical (input : Str) :
    ((∃ key, normalizePublicKey input = .ok key) ↔ ∃ algorithm keyData rest,
      splitWhitespace input = algorithm :: keyData :: rest ∧ isSupportedAlgorithm algorithm) ∧
    ∀ key, normalizePublicKey input = .ok key → CanonicalForm input key ∧
      ∀ input' key', normalizePublicKey input' = .ok key' →
        (key = key' ↔ splitWhitespace input = splitWhitespace input') := by
  simp only [normalizePublicKey_eq_ok_iff]
  refine ⟨?_, ?_⟩
  · rw [← exists_keyWords_iff fun w => word_of_mem_splitWhitespace]
    exact ⟨fun ⟨_, k, hsplit, _⟩ => ⟨k, hsplit⟩, fun ⟨k, hsplit⟩ => ⟨k.text, k, hsplit, rfl⟩⟩
  · rintro key ⟨k, hsplit, rfl⟩
    refine ⟨k.canonicalForm hsplit, ?_⟩
    rintro input' key' ⟨k', hsplit', rfl⟩
    rw [hsplit, hsplit']
    constructor
    · intro htext
      rw [← k.splitWhitespace_text, htext, k'.splitWhitespace_text]
    · intro hwords
      rw [KeyWords.text, hwords, KeyWords.text]

/-- Blanks around and between the words. -/
theorem normalize_canonical_blanks :
    CanonicalForm "  ssh-ed25519   AAAAC3Nza    node-a  ".toList "ssh-ed25519 AAAAC3Nza node-a".toList :=
  ((normalize_canonical "  ssh-ed25519   AAAAC3Nza    node-a  ".toList).2 _ (by decide +kernel)).1

end SshKeySync.Keys

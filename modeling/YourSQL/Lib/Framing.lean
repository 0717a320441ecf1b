import Mathlib.Data.List.Basic

/-! # Streams of self-delimiting frames

A framing knows where a frame ends from the frame itself, with no marker between
frames. Reading takes frames off the front until the rest holds no complete
frame. Every stream splits in exactly one way into frames and an incomplete rest,
which decides what a reader sees when a stream is cut and then continued.
-/

/-- Encoder and front decoder of one frame, each the inverse of the other. -/
structure Framing (α : Type u) (β : Type v) where
  encode : α → List β
  decode : List β → Option (α × List β)
  decode_encode : ∀ a rest, decode (encode a ++ rest) = some (a, rest)
  encode_decode : ∀ stream a rest, decode stream = some (a, rest) → stream = encode a ++ rest
  encode_ne_nil : ∀ a, encode a ≠ []

namespace Framing

variable {α : Type u} {β : Type v} (F : Framing α β)

def encodeAll (frames : List α) : List β := frames.flatMap F.encode

/-- No complete frame starts here. -/
def Incomplete (rest : List β) : Prop := F.decode rest = none

/-- Take frames off the front, at most `fuel` of them. -/
def parse : (fuel : Nat) → List β → List α
  | 0, _ => []
  | fuel + 1, stream =>
      match F.decode stream with
      | some (a, rest) => a :: parse fuel rest
      | none => []

/-- The frames that lie inside the first `cut` items of their stream. -/
def survivors : List α → (cut : Nat) → List α
  | [], _ => []
  | a :: frames, cut =>
      if (F.encode a).length ≤ cut then
        a :: survivors frames (cut - (F.encode a).length)
      else []

/-- What a cut leaves of the first frame that does not survive it. -/
def tornTail : List α → (cut : Nat) → List β
  | [], _ => []
  | a :: frames, cut =>
      if (F.encode a).length ≤ cut then
        tornTail frames (cut - (F.encode a).length)
      else (F.encode a).take cut

@[simp] theorem encodeAll_nil : F.encodeAll [] = [] := rfl

@[simp] theorem encodeAll_cons (a : α) (frames : List α) :
    F.encodeAll (a :: frames) = F.encode a ++ F.encodeAll frames := rfl

@[simp] theorem encodeAll_append (first second : List α) :
    F.encodeAll (first ++ second) = F.encodeAll first ++ F.encodeAll second :=
  List.flatMap_append

theorem incomplete_nil : F.Incomplete [] := by
  cases decoded : F.decode [] with
  | none => exact decoded
  | some frame =>
      have empty := F.encode_decode [] frame.1 frame.2 decoded
      exact absurd (List.append_eq_nil_iff.mp empty.symm).1 (F.encode_ne_nil _)

theorem length_encode_pos (a : α) : 0 < (F.encode a).length :=
  List.length_pos_of_ne_nil (F.encode_ne_nil a)

/-- Every stream is a list of frames and an incomplete rest. -/
theorem exists_split (stream : List β) :
    ∃ frames rest, stream = F.encodeAll frames ++ rest ∧ F.Incomplete rest := by
  induction size : stream.length using Nat.strongRecOn generalizing stream with
  | ind n ih =>
      cases decoded : F.decode stream with
      | none => exact ⟨[], stream, rfl, decoded⟩
      | some frame =>
          obtain ⟨a, after⟩ := frame
          have whole := F.encode_decode stream a after decoded
          have shorter : after.length < n := by
            have := F.length_encode_pos a
            have := congrArg List.length whole
            simp only [List.length_append] at this
            omega
          obtain ⟨frames, rest, split, incomplete⟩ := ih after.length shorter after rfl
          exact ⟨a :: frames, rest, by rw [whole, split, encodeAll_cons, List.append_assoc],
            incomplete⟩

/-- The reader returns the frames of that split, given fuel for each of them. -/
theorem parse_split {frames : List α} {rest : List β} (incomplete : F.Incomplete rest)
    {fuel : Nat} (enough : frames.length < fuel) :
    F.parse fuel (F.encodeAll frames ++ rest) = frames := by
  induction frames generalizing fuel with
  | nil =>
      obtain ⟨fuel, rfl⟩ := Nat.exists_eq_succ_of_ne_zero (Nat.ne_of_gt enough)
      rw [encodeAll_nil, List.nil_append, parse, incomplete]
  | cons a frames ih =>
      obtain ⟨fuel, rfl⟩ := Nat.exists_eq_succ_of_ne_zero (Nat.ne_of_gt (Nat.zero_lt_of_lt enough))
      rw [encodeAll_cons, List.append_assoc, parse, F.decode_encode]
      simp only [ih (Nat.lt_of_succ_lt_succ enough)]

theorem length_le_length_encodeAll (frames : List α) :
    frames.length ≤ (F.encodeAll frames).length := by
  induction frames with
  | nil => exact Nat.le_refl 0
  | cons a frames ih =>
      have := F.length_encode_pos a
      simp only [encodeAll_cons, List.length_cons, List.length_append]
      omega

/-- The reader returns a frame exactly where it stands behind frames. -/
theorem mem_parse_iff {stream : List β} {fuel : Nat} (enough : stream.length < fuel) {a : α} :
    a ∈ F.parse fuel stream ↔ ∃ front rest, stream = F.encodeAll front ++ (F.encode a ++ rest) := by
  constructor
  · intro member
    obtain ⟨frames, rest, rfl, incomplete⟩ := F.exists_split stream
    have few := F.length_le_length_encodeAll frames
    rw [List.length_append] at enough
    rw [F.parse_split incomplete (by omega)] at member
    obtain ⟨front, later, rfl⟩ := List.append_of_mem member
    exact ⟨front, F.encodeAll later ++ rest, by simp⟩
  · intro ⟨front, rest, whole⟩
    obtain ⟨later, torn, rfl, incomplete⟩ := F.exists_split rest
    have regrouped : stream = F.encodeAll (front ++ a :: later) ++ torn := by simp [whole]
    have few := F.length_le_length_encodeAll (front ++ a :: later)
    rw [regrouped, List.length_append] at enough
    rw [regrouped, F.parse_split incomplete (by omega)]
    exact List.mem_append_right _ (List.mem_cons_self ..)

/-- A frame that lost its end is incomplete, however short the loss. -/
theorem incomplete_take {a : α} {cut : Nat} (short : cut < (F.encode a).length) :
    F.Incomplete ((F.encode a).take cut) := by
  cases decoded : F.decode ((F.encode a).take cut) with
  | none => exact decoded
  | some frame =>
      obtain ⟨b, after⟩ := frame
      have front := F.encode_decode _ b after decoded
      have again : F.encode a = F.encode b ++ (after ++ (F.encode a).drop cut) := by
        rw [← List.append_assoc, ← front, List.take_append_drop]
      have same : some (a, []) = some (b, after ++ (F.encode a).drop cut) := by
        have decodedWhole := F.decode_encode a []
        rw [List.append_nil] at decodedWhole
        rw [← decodedWhole, ← F.decode_encode b, ← again]
      have lost : (F.encode a).drop cut = [] := by
        have := (Prod.mk.inj (Option.some.inj same)).2
        exact (List.append_eq_nil_iff.mp this.symm).2
      exact absurd (List.drop_eq_nil_iff.mp lost) (by omega)

theorem take_encodeAll (frames : List α) (cut : Nat) :
    (F.encodeAll frames).take cut =
      F.encodeAll (F.survivors frames cut) ++ F.tornTail frames cut := by
  induction frames generalizing cut with
  | nil => simp [survivors, tornTail]
  | cons a frames ih =>
      simp only [encodeAll_cons, survivors, tornTail]
      split
      · rename_i whole
        rw [List.take_append, List.take_of_length_le whole, ih, encodeAll_cons, List.append_assoc]
      · rename_i torn
        rw [List.take_append_of_le_length (by omega), encodeAll_nil, List.nil_append]

theorem incomplete_tornTail (frames : List α) (cut : Nat) :
    F.Incomplete (F.tornTail frames cut) := by
  induction frames generalizing cut with
  | nil => exact F.incomplete_nil
  | cons a frames ih =>
      simp only [tornTail]
      split
      · exact ih _
      · rename_i torn
        exact F.incomplete_take (by omega)

theorem survivors_prefix (frames : List α) (cut : Nat) : F.survivors frames cut <+: frames := by
  induction frames generalizing cut with
  | nil => exact List.prefix_rfl
  | cons a frames ih =>
      simp only [survivors]
      split
      · exact List.cons_prefix_cons.mpr ⟨rfl, ih _⟩
      · exact List.nil_prefix

/-- A frame that ends in front of the cut survives it. -/
theorem mem_survivors {before after : List α} {a : α} {cut : Nat}
    (inside : (F.encodeAll (before ++ [a])).length ≤ cut) :
    a ∈ F.survivors (before ++ a :: after) cut := by
  induction before generalizing cut with
  | nil =>
      have fits : (F.encode a).length ≤ cut := by simpa using inside
      rw [List.nil_append, survivors, if_pos fits]
      exact List.mem_cons_self ..
  | cons b before ih =>
      simp only [List.cons_append, encodeAll_cons, List.length_append] at inside
      rw [List.cons_append, survivors, if_pos (by omega)]
      exact List.mem_cons_of_mem _ (ih (by omega))

/-- The reader of a cut stream returns what survived. -/
theorem parse_take (frames : List α) (cut : Nat) {fuel : Nat}
    (enough : ((F.encodeAll frames).take cut).length < fuel) :
    F.parse fuel ((F.encodeAll frames).take cut) = F.survivors frames cut := by
  have := F.length_le_length_encodeAll (F.survivors frames cut)
  rw [take_encodeAll] at enough ⊢
  rw [List.length_append] at enough
  exact F.parse_split (F.incomplete_tornTail frames cut) (by omega)

/-- The continuation is read back in full exactly when the torn tail followed by it
    is also the continuation followed by something incomplete. -/
theorem parse_torn_append_iff (first later : List α) (cut : Nat) {fuel : Nat}
    (enough : ((F.encodeAll first).take cut ++ F.encodeAll later).length < fuel) :
    F.parse fuel ((F.encodeAll first).take cut ++ F.encodeAll later) =
        F.survivors first cut ++ later ↔
      ∃ rest, F.Incomplete rest ∧
        F.tornTail first cut ++ F.encodeAll later = F.encodeAll later ++ rest := by
  obtain ⟨frames, rest, split, incomplete⟩ :=
    F.exists_split (F.tornTail first cut ++ F.encodeAll later)
  have whole : (F.encodeAll first).take cut ++ F.encodeAll later =
      F.encodeAll (F.survivors first cut ++ frames) ++ rest := by
    rw [take_encodeAll, List.append_assoc, split, encodeAll_append, List.append_assoc]
  have fits : ∀ {other tail}, (F.encodeAll first).take cut ++ F.encodeAll later =
      F.encodeAll other ++ tail → other.length < fuel := by
    intro other tail same
    have := F.length_le_length_encodeAll other
    rw [same, List.length_append] at enough
    omega
  have parsed : F.parse fuel ((F.encodeAll first).take cut ++ F.encodeAll later) =
      F.survivors first cut ++ frames := by
    rw [whole, F.parse_split incomplete (fits whole)]
  rw [parsed, List.append_cancel_left_eq]
  constructor
  · rintro rfl
    exact ⟨rest, incomplete, split⟩
  · rintro ⟨rest', incomplete', split'⟩
    have whole' : (F.encodeAll first).take cut ++ F.encodeAll later =
        F.encodeAll (F.survivors first cut ++ later) ++ rest' := by
      rw [take_encodeAll, List.append_assoc, split', encodeAll_append, List.append_assoc]
    have parsed' := F.parse_split incomplete' (fits whole')
    rw [← whole', parsed] at parsed'
    exact List.append_cancel_left parsed'

end Framing

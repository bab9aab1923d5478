import Courier.Bus.Basic
import Courier.Proofs.Messages.Base64
import Courier.Proofs.Messages.Quoting
import Mathlib.Data.String.Basic

/-!
# Envelopes and back

An envelope is written as an object with two members, and both are read back: the headers member by
member, the payload from its characters.  The headers come back in the order of their keys
(`Dictionary.Ordered`), which is the order of every dictionary that was built by insertions, and
they may be written in any other: `Dictionary.ofList_of_perm`.

`foldMembers_member` reads one member of a written object, whatever its value is.

Main statements: `Envelope.ofBytes_toBytes`, `Envelope.read_back_in_any_order`, and
`TransportMessage.opened_wrap` for a message on its way through a transport of either kind.
-/

namespace Courier

namespace Dictionary

variable {α : Type} {d : Dictionary α} {key : String} {x : α}

/-- The entries are in increasing order of their keys. -/
def Ordered (d : Dictionary α) : Prop := d.keys.Pairwise (· < ·)

instance : Decidable d.Ordered := inferInstanceAs (Decidable (d.keys.Pairwise (· < ·)))

theorem mem_keys_insert {k : String} (h : k ∈ (d.insert key x).keys) : k = key ∨ k ∈ d.keys := by
  induction d with
  | nil => exact .inl (List.mem_singleton.mp h)
  | cons e rest ih =>
    obtain ⟨j, y⟩ := e
    simp only [insert] at h
    split at h
    · next hj =>
      rcases List.mem_cons.mp h with hk | hk
      · exact .inl hk
      · exact .inr (List.mem_cons_of_mem _ hk)
    split at h
    · rcases List.mem_cons.mp h with hk | hk
      · exact .inl hk
      · exact .inr hk
    · rcases List.mem_cons.mp h with hk | hk
      · exact .inr (hk ▸ List.mem_cons_self)
      · rcases ih hk with hk | hk
        · exact .inl hk
        · exact .inr (List.mem_cons_of_mem _ hk)

/-- Putting an entry in keeps the order. -/
theorem Ordered.insert (h : d.Ordered) (key : String) (x : α) : (d.insert key x).Ordered := by
  induction d with
  | nil => exact List.pairwise_singleton _ _
  | cons e rest ih =>
    obtain ⟨k, y⟩ := e
    obtain ⟨hfirst, hrest⟩ := List.pairwise_cons.mp h
    simp only [Dictionary.insert]
    split
    · next hk =>
      subst hk
      exact List.pairwise_cons.mpr ⟨hfirst, hrest⟩
    split
    · next hlt =>
      refine List.pairwise_cons.mpr ⟨?_, h⟩
      intro j hj
      rcases List.mem_cons.mp hj with rfl | hj
      · exact hlt
      · exact lt_trans hlt (hfirst j hj)
    · next hne hnot =>
      have hlt : k < key := lt_of_le_of_ne (not_lt.mp hnot) hne
      refine List.pairwise_cons.mpr ⟨?_, ih hrest⟩
      intro j hj
      rcases mem_keys_insert hj with rfl | hj
      · exact hlt
      · exact hfirst j hj

theorem ordered_nil : Ordered ([] : Dictionary α) := List.Pairwise.nil

/-- A dictionary that was built by insertions is in order. -/
theorem ordered_ofList (entries : List (String × α)) : (ofList entries).Ordered := by
  have hfold : ∀ (d : Dictionary α), d.Ordered →
      Ordered (entries.foldl (fun d e => d.insert e.1 e.2) d) := by
    induction entries with
    | nil => exact fun d h => h
    | cons e rest ih => exact fun d h => ih _ (h.insert e.1 e.2)
  exact hfold [] ordered_nil

/-- An entry with a new key is put between the others. -/
theorem perm_insert (h : key ∉ d.keys) (x : α) : (d.insert key x).Perm ((key, x) :: d) := by
  induction d with
  | nil => exact List.Perm.refl _
  | cons e rest ih =>
    obtain ⟨k, y⟩ := e
    obtain ⟨hne, hrest⟩ := List.ne_and_not_mem_of_not_mem_cons h
    rw [insert, if_neg (Ne.symm hne)]
    split
    · exact List.Perm.refl _
    · exact ((ih hrest).cons _).trans (List.Perm.swap ..)

/-- Entries keep their keys in every order. -/
theorem nodup_keys_of_perm {e : Dictionary α} (h : d.keys.Nodup) (hperm : e.Perm d) :
    e.keys.Nodup := by
  have hkeys : e.keys.Perm d.keys := hperm.map Prod.fst
  exact hkeys.nodup_iff.mpr h

/-- Entries with different keys all get into the dictionary that is built of them. -/
theorem perm_ofList {entries : List (String × α)} (h : (keys entries).Nodup) :
    (ofList entries).Perm entries := by
  have hfold : ∀ d : Dictionary α, (keys (d ++ entries)).Nodup →
      (entries.foldl (fun d e => d.insert e.1 e.2) d).Perm (d ++ entries) := by
    clear h
    induction entries with
    | nil =>
      intro d _
      rw [List.append_nil]
      exact List.Perm.refl d
    | cons e rest ih =>
      intro d hdistinct
      have hmiddle : (d ++ e :: rest).Perm (e :: (d ++ rest)) := List.perm_middle
      obtain ⟨hnew, -⟩ := List.nodup_cons.mp (nodup_keys_of_perm hdistinct hmiddle.symm)
      have hinsert : (d.insert e.1 e.2 ++ rest).Perm (d ++ e :: rest) := by
        have hfree : e.1 ∉ d.keys := by
          intro hmem
          apply hnew
          simp only [List.map_append, List.mem_append]
          exact .inl hmem
        exact ((perm_insert hfree e.2).append_right rest).trans hmiddle.symm
      exact (ih _ (nodup_keys_of_perm hdistinct hinsert)).trans hinsert
  exact hfold [] h

theorem Ordered.nodup_keys (h : d.Ordered) : d.keys.Nodup := h.imp ne_of_lt

/-- There is one order of increasing keys. -/
theorem Ordered.eq_of_perm {e : Dictionary α} (h : d.Ordered) (h' : e.Ordered) (hperm : d.Perm e) :
    d = e := by
  refine List.Perm.eq_of_pairwise ?_ (List.pairwise_map.mp h) (List.pairwise_map.mp h') hperm
  intro a b _ _ hlt hgt
  exact absurd hgt (lt_asymm hlt)

/-- **In whatever order the entries of a dictionary come**, the same dictionary is built of them. -/
theorem ofList_of_perm {entries : List (String × α)} (h : d.Ordered) (hperm : entries.Perm d) :
    ofList entries = d := by
  have hdistinct := nodup_keys_of_perm h.nodup_keys hperm
  exact (ordered_ofList entries).eq_of_perm h ((perm_ofList hdistinct).trans hperm)

end Dictionary

namespace Json

/-! ## Objects member by member -/

/-- Members up to the closing brace; behind others they begin with a comma. -/
def renderFrom (first : Bool) : List (String × Json) → List Char
  | [] => ['}']
  | (k, v) :: rest =>
    (if first then [] else [',']) ++ (quoted k ++ ':' :: (render v ++ renderFrom false rest))

theorem renderMembers_eq (ms : List (String × Json)) : renderMembers ms = renderFrom true ms := by
  induction ms with
  | nil => rfl
  | cons m rest ih =>
    obtain ⟨k, v⟩ := m
    cases rest with
    | nil => simp [renderMembers, renderFrom]
    | cons m rest =>
      obtain ⟨j, w⟩ := m
      rw [renderMembers, ih]
      simp [renderFrom]

/-- Each member takes at least one byte. -/
theorem length_lt_renderFrom (first : Bool) (ms : List (String × Json)) :
    ms.length < (Bytes.ofChars (renderFrom first ms)).length := by
  induction ms generalizing first with
  | nil => exact Nat.one_pos
  | cons m rest ih =>
    obtain ⟨k, v⟩ := m
    have hcolon : (String.utf8EncodeChar ':').length = 1 := rfl
    have hrest := ih false
    simp only [renderFrom, Bytes.ofChars_cons, Bytes.ofChars_append, List.length_append,
      List.length_cons, hcolon]
    omega

variable {σ : Type} {member : String → σ → Reader σ} {k : String} {v : Json}
variable {ms : List (String × Json)} {state state' : σ} {rest : Bytes} {fuel : Nat}

/-- The next name of a written object is read, with the comma before it. -/
theorem nextName_quoted (first : Bool) (k : String) (rest : Bytes) :
    nextName textAfterQuote first
      (Bytes.ofChars (if first then [] else [',']) ++ (Bytes.ofChars (quoted k) ++ rest)) =
      .ok (some k, rest) := by
  have hread := textAfterQuote_quoted k rest
  have hquote (s : Bytes) : skipBlanks (byte '"' :: s) = byte '"' :: s := rfl
  rw [ofChars_quoted, List.cons_append, List.append_assoc]
  unfold nextName
  cases first with
  | true =>
    have hnone : Bytes.ofChars [] = [] := rfl
    have hne : byte '"' ≠ byte '}' := by decide
    simp only [hnone, List.nil_append, List.singleton_append, hquote, if_neg hne, if_true, hread]
  | false =>
    have hone : Bytes.ofChars [','] = [byte ','] := rfl
    have hcomma (s : Bytes) : skipBlanks (byte ',' :: s) = byte ',' :: s := rfl
    have hne : byte ',' ≠ byte '}' := by decide
    simp only [hone, List.singleton_append, hcomma, hquote, if_neg hne, Bool.false_eq_true,
      if_false, if_true, hread]

/-- **A member of a written object is read by itself**, and what it gives decides how it goes on. -/
theorem foldMembers_member (first : Bool) (fuel : Nat) :
    foldMembers member first state (Bytes.ofChars (renderFrom first ((k, v) :: ms)) ++ rest)
        (fuel + 1) =
      match member k state (byte ':' ::
        (Bytes.ofChars (render v) ++ (Bytes.ofChars (renderFrom false ms) ++ rest))) with
      | .error f => .error f
      | .ok (state, s) => foldMembers member false state s fuel := by
  have hcolon : String.utf8EncodeChar ':' = [byte ':'] := rfl
  rw [foldMembers, renderFrom]
  cases h : member k state
    (byte ':' :: (Bytes.ofChars (render v) ++ (Bytes.ofChars (renderFrom false ms) ++ rest))) <;>
  simp only [Bytes.ofChars_append, Bytes.ofChars_cons, hcolon, List.append_assoc,
    List.cons_append, List.nil_append, nextName_quoted, h]

theorem foldMembers_cons (first : Bool) (fuel : Nat) (state' : σ)
    (hmember : member k state
      (byte ':' :: (Bytes.ofChars (render v) ++ (Bytes.ofChars (renderFrom false ms) ++ rest))) =
        .ok (state', Bytes.ofChars (renderFrom false ms) ++ rest)) :
    foldMembers member first state (Bytes.ofChars (renderFrom first ((k, v) :: ms)) ++ rest)
        (fuel + 1) =
      foldMembers member false state' (Bytes.ofChars (renderFrom false ms) ++ rest) fuel := by
  rw [foldMembers_member, hmember]

theorem foldMembers_nil (member : String → σ → Reader σ) (first : Bool) (state : σ)
    (rest : Bytes) (fuel : Nat) :
    foldMembers member first state (Bytes.ofChars (renderFrom first []) ++ rest) (fuel + 1) =
      .ok (state, rest) := by
  cases first <;> rfl

theorem colon_cons (s : Bytes) : colon (byte ':' :: s) = .ok s := rfl

/-- An object is written as its members in braces. -/
theorem ofChars_render_object (ms : List (String × Json)) :
    Bytes.ofChars (render (.object ms)) = byte '{' :: Bytes.ofChars (renderFrom true ms) := by
  rw [render, renderMembers_eq, Bytes.ofChars_cons]
  rfl

/-! ## Dictionaries of texts -/

/-- The members of a dictionary of texts. -/
def textMembers (d : Dictionary String) : List (String × Json) := d.map fun e => (e.1, .text e.2)

/-- Texts are read back one after the other and put into the dictionary so far. -/
theorem foldMembers_texts {member : String → Dictionary String → Reader (Dictionary String)}
    (hmember : ∀ k d t rest, member k d (byte ':' :: (Bytes.ofChars (quoted t) ++ rest)) =
      .ok (d.insert k t, rest))
    (first : Bool) (d e : Dictionary String) (rest : Bytes) (hfuel : e.length < fuel) :
    foldMembers member first d (Bytes.ofChars (renderFrom first (textMembers e)) ++ rest) fuel =
      .ok (e.foldl (fun d x => d.insert x.1 x.2) d, rest) := by
  induction e generalizing first d fuel with
  | nil =>
    obtain ⟨fuel, rfl⟩ := Nat.exists_eq_add_one.mpr hfuel
    exact foldMembers_nil member first d rest fuel
  | cons x e ih =>
    obtain ⟨fuel, rfl⟩ := Nat.exists_eq_add_one.mpr (Nat.zero_lt_of_lt hfuel)
    have hread := hmember x.1 d x.2 (Bytes.ofChars (renderFrom false (textMembers e)) ++ rest)
    have hstep := foldMembers_cons (v := .text x.2) first fuel (d.insert x.1 x.2) hread
    exact hstep.trans (ih false _ (Nat.lt_of_succ_lt_succ hfuel))

/-- **A dictionary of texts is built up again from what is written of it.** -/
theorem texts_ofTexts (d : Dictionary String) (rest : Bytes) :
    texts (Bytes.ofChars (render (ofTexts d)) ++ rest) = .ok (.ofList d, rest) := by
  have hbrace (s : Bytes) : skipBlanks (byte '{' :: s) = byte '{' :: s := rfl
  have hbytes : Bytes.ofChars (render (ofTexts d)) ++ rest =
      byte '{' :: (Bytes.ofChars (renderFrom true (textMembers d)) ++ rest) := by
    rw [ofTexts, ofChars_render_object, List.cons_append]
    rfl
  have hfuel : d.length < (Bytes.ofChars (renderFrom true (textMembers d)) ++ rest).length + 1 := by
    have hlength := length_lt_renderFrom true (textMembers d)
    simp only [textMembers, List.length_map] at hlength
    simp only [textMembers, List.length_append]
    omega
  rw [texts, hbytes, hbrace]
  simp only [if_true]
  rw [foldMembers_texts (fun k d t rest => ?_) true [] d rest hfuel]
  · rfl
  · simp only [colon_cons, textValue_quoted]

end Json

namespace Envelope

open Json (byte renderFrom)

theorem payloadReader_encode (b rest : Bytes) :
    payloadReader
      (Bytes.ofChars (Json.render (.text (String.ofList (Base64.encode b)))) ++ rest) =
      .ok (b, rest) := by
  rw [Json.render, payloadReader, Json.textOf, Json.textValue_quoted]
  simp only [String.toList_ofList, Base64.decode?_encode]

/-- The two members of an envelope. -/
def members (e : Envelope) : List (String × Json) :=
  [("headers", .ofTexts e.headers), ("payload", .text (String.ofList (Base64.encode e.payload)))]

theorem toBytes_eq (e : Envelope) :
    e.toBytes = byte '{' :: Bytes.ofChars (renderFrom true e.members) := by
  rw [toBytes, Json.toBytes, Json.toText, Bytes.ofString_ofList, toJson,
    Json.ofChars_render_object]
  rfl

/-- The members of an envelope are read into its parts. -/
theorem namedFields_members (e : Envelope) :
    Json.namedFields fields {} (Bytes.ofChars (renderFrom true e.members)) =
      .ok (⟨some (.ofList e.headers), some e.payload⟩, []) := by
  obtain ⟨fuel, hfuel⟩ : ∃ fuel,
      (Bytes.ofChars (renderFrom true e.members)).length = fuel + 2 :=
    Nat.exists_eq_add_of_le' (Nat.le_of_lt (Json.length_lt_renderFrom true e.members))
  have hheaders := Json.texts_ofTexts e.headers
  have hpayload := payloadReader_encode e.payload
  rw [Json.namedFields, hfuel, ← List.append_nil (Bytes.ofChars (renderFrom true e.members)),
    members]
  rw [Json.foldMembers_cons true _ (⟨some (.ofList e.headers), none⟩, ["headers"])]
  · rw [Json.foldMembers_cons false _
      (⟨some (.ofList e.headers), some e.payload⟩, ["payload", "headers"])]
    · rw [Json.foldMembers_nil]
    · simp [fields, Json.colon_cons, hpayload]
  · simp [fields, Json.colon_cons, hheaders]

/-- An envelope is read from the wire with the dictionary that is built of its headers. -/
theorem ofBytes_toBytes_eq (e : Envelope) :
    ofBytes e.toBytes = .ok { e with headers := .ofList e.headers } := by
  have hbrace (s : Bytes) : Json.skipBlanks (byte '{' :: s) = byte '{' :: s := rfl
  rw [ofBytes, toBytes_eq, Json.parseAs, reader, Json.record, hbrace]
  simp only [if_true, namedFields_members]
  rfl

/-- The order in which the headers of an envelope are written does not matter. -/
theorem ofBytes_toBytes_of_perm {e : Envelope} {written : Headers} (h : e.headers.Ordered)
    (hperm : written.Perm e.headers) : ofBytes (toBytes { e with headers := written }) = .ok e := by
  rw [ofBytes_toBytes_eq, Dictionary.ofList_of_perm h hperm]

/-- **An envelope is read back from the wire.** -/
theorem ofBytes_toBytes {e : Envelope} (h : e.headers.Ordered) : ofBytes e.toBytes = .ok e :=
  ofBytes_toBytes_of_perm h (List.Perm.refl _)

/-- **An envelope is read back in whatever order its headers are written**, whatever its texts and
its payload are.  So envelopes are equal if they are written alike, each in an order of its own. -/
theorem read_back_in_any_order {e : Envelope} (h : e.headers.Ordered) :
    (∀ written : Headers, written.Perm e.headers →
      ofBytes (toBytes { e with headers := written }) = .ok e) ∧
    ∀ (e' : Envelope) (written written' : Headers), e'.headers.Ordered →
      written.Perm e.headers → written'.Perm e'.headers →
      toBytes { e with headers := written } = toBytes { e' with headers := written' } → e = e' := by
  constructor
  · intro written hperm
    exact ofBytes_toBytes_of_perm h hperm
  · intro e' written written' h' hperm hperm' hsame
    have hread := ofBytes_toBytes_of_perm h hperm
    rw [hsame, ofBytes_toBytes_of_perm h' hperm'] at hread
    exact (Except.ok.inj hread).symm

/-- An envelope with an empty name, a quote, a backslash and control characters. -/
def odd : Envelope :=
  { headers := [("", "\""), ("\n", "\x00\\"), ("é", "")], payload := [0, 255, 34, 123] }

/-- It is read back from its headers in the opposite order. -/
theorem read_back_in_any_order_reversed : odd.headers.Ordered ∧
    odd.headers.reverse.Perm odd.headers ∧
    ofBytes (toBytes { odd with headers := odd.headers.reverse }) = .ok odd := by
  have hordered : odd.headers.Ordered := by decide
  have hperm : odd.headers.reverse.Perm odd.headers := List.reverse_perm _
  exact ⟨hordered, hperm, (read_back_in_any_order hordered).1 _ hperm⟩

end Envelope

namespace TransportMessage

variable {m : TransportMessage}

/-- The headers and the payload of a message that a transport brings: beside each other, or in an
envelope if it carries no headers. -/
def opened (nativeHeaders : Bool) (m : TransportMessage) : Except SerializationFailure Envelope :=
  if nativeHeaders then .ok ⟨m.headers, m.payload⟩ else Envelope.ofBytes m.payload

/-- **Whichever way a message goes, what was put in comes out.** -/
theorem opened_wrap (nativeHeaders : Bool) (h : m.headers.Ordered) :
    (m.wrap nativeHeaders).opened nativeHeaders = .ok ⟨m.headers, m.payload⟩ := by
  cases nativeHeaders with
  | true => rfl
  | false => exact Envelope.ofBytes_toBytes (e := ⟨m.headers, m.payload⟩) h

theorem path_wrap (nativeHeaders : Bool) (m : TransportMessage) :
    (m.wrap nativeHeaders).path = m.path := by
  cases nativeHeaders <;> rfl

theorem messageType_wrap (nativeHeaders : Bool) (m : TransportMessage) :
    (m.wrap nativeHeaders).messageType = m.messageType := by
  cases nativeHeaders <;> rfl

/-- A message of one kind of transport as it goes through another one. -/
def rewrap (nativeHeaders nativeHeaders' : Bool) (m : TransportMessage) : TransportMessage :=
  match m.opened nativeHeaders with
  | .ok e => wrap nativeHeaders' { m with payload := e.payload, headers := e.headers }
  | .error _ => m

theorem rewrap_wrap (nativeHeaders nativeHeaders' : Bool) (h : m.headers.Ordered) :
    (m.wrap nativeHeaders).rewrap nativeHeaders nativeHeaders' = m.wrap nativeHeaders' := by
  rw [rewrap, opened_wrap nativeHeaders h]
  cases nativeHeaders <;> rfl

theorem path_rewrap (nativeHeaders nativeHeaders' : Bool) (m : TransportMessage) :
    (m.rewrap nativeHeaders nativeHeaders').path = m.path := by
  unfold rewrap
  split
  · rw [path_wrap]
  · rfl

theorem messageType_rewrap (nativeHeaders nativeHeaders' : Bool) (m : TransportMessage) :
    (m.rewrap nativeHeaders nativeHeaders').messageType = m.messageType := by
  unfold rewrap
  split
  · rw [messageType_wrap]
  · rfl

/-- A transport's failure is reported alike, for it names the path and the type only. -/
theorem reported_rewrap (nativeHeaders nativeHeaders' : Bool) (m : TransportMessage) :
    (m.rewrap nativeHeaders nativeHeaders').reported = m.reported := by
  funext cause
  cases cause <;> simp only [reported, path_rewrap, messageType_rewrap]

end TransportMessage
end Courier

import Courier.Outbox.Row
import Courier.Proofs.Messages.Records
import Courier.Proofs.Time.Text

/-!
# Rows and back

A stored row has eleven members, each with a text of its own kind: the digits of an id in groups,
bytes as a list of numbers, headers as an object, instants as dates.  Every one of them is read back
(`Row.reads_members`), so a row is read back from all of them, in any order, and from some of them
as the row that these make (`Row.ofBytes_of_sublist`).

Only an instant that no clock can show comes back as another one.  Rows that were read have no such
instants: every field leaves the parts of a row storable (`Row.storable_fields`), so reading a row,
storing it and reading it again gives the same row.

Main statement: `Row.kept_by_storage`.
-/

namespace Courier

open Json (Reads Unordered byte render)

/-! ## Ids -/

namespace RowId

variable {n width : Nat}

theorem length_hexDigitsReversed (width n : Nat) : (hexDigitsReversed width n).length = width := by
  induction width generalizing n with
  | zero => rfl
  | succ width ih => rw [hexDigitsReversed, List.length_cons, ih]

/-- A hexadecimal digit is read back. -/
theorem digitValue?_hexDigit : ∀ n < 16, digitValue? (Json.hexDigit n) = some n := by
  decide

/-- The digits of a number, last digit first. -/
theorem exists_hexDigitsReversed (width n : Nat) : ∃ values : List Nat,
    hexDigitsReversed width n = values.map Json.hexDigit ∧ (∀ d ∈ values, d < 16) ∧
      values.foldr (fun d m => m * 16 + d) 0 = n % 16 ^ width := by
  induction width generalizing n with
  | zero => exact ⟨[], rfl, nofun, (Nat.mod_one n).symm⟩
  | succ width ih =>
    obtain ⟨values, hvalues, hlt, hsum⟩ := ih (n / 16)
    have hdigit : n % 16 < 16 := Nat.mod_lt n (by decide)
    refine ⟨n % 16 :: values, ?_, List.forall_mem_cons.mpr ⟨hdigit, hlt⟩, ?_⟩
    · rw [hexDigitsReversed, hvalues, List.map_cons]
    · rw [List.foldr_cons, hsum, Nat.pow_succ', Nat.mod_mul]
      omega

/-- Digits are read one after the other. -/
theorem mapM_hexDigit {values : List Nat} (h : ∀ d ∈ values, d < 16) :
    (values.map Json.hexDigit).mapM digitValue? = some values := by
  induction values with
  | nil => rfl
  | cons d values ih =>
    obtain ⟨hd, hvalues⟩ := List.forall_mem_cons.mp h
    rw [List.map_cons, List.mapM_cons, digitValue?_hexDigit d hd, ih hvalues]
    rfl

theorem length_digits (id : RowId) : id.digits.length = 32 := by
  rw [digits, List.length_reverse, length_hexDigitsReversed]

/-- **An id is read back from its digits.** -/
theorem ofDigits?_digits (id : RowId) : ofDigits? id.digits = some id := by
  obtain ⟨values, hvalues, hlt, hsum⟩ := exists_hexDigitsReversed 32 id.bits.toNat
  have hread : id.digits.mapM digitValue? = some values.reverse := by
    rw [digits, hvalues, ← List.map_reverse]
    exact mapM_hexDigit fun d hd => hlt d (List.mem_reverse.mp hd)
  have hnumber : values.reverse.foldl (fun n d => n * 16 + d) 0 = id.bits.toNat := by
    rw [List.foldl_reverse, hsum]
    exact Nat.mod_eq_of_lt id.bits.isLt
  simp [ofDigits?, length_digits, hread, hnumber]

/-- Groups of 8, 4, 4, 4 and 12 digits are put together. -/
theorem ofGroups?_append {a b c d e : List Char} (ha : a.length = 8) (hb : b.length = 4)
    (hc : c.length = 4) (hd : d.length = 4) (he : e.length = 12) :
    ofGroups? (a ++ '-' :: (b ++ '-' :: (c ++ '-' :: (d ++ '-' :: e)))) =
      ofDigits? (a ++ (b ++ (c ++ (d ++ e)))) := by
  generalize hs : a ++ '-' :: (b ++ '-' :: (c ++ '-' :: (d ++ '-' :: e))) = s
  have hlength : s.length = 36 := by
    simp [← hs, ha, hb, hc, hd, he]
  have hhyphens : s[8]? = some '-' ∧ s[13]? = some '-' ∧ s[18]? = some '-' ∧ s[23]? = some '-' := by
    simp [← hs, List.getElem?_append, ha, hb, hc, hd]
  have hgroups : s.take 8 ++ (s.drop 9).take 4 ++ (s.drop 14).take 4 ++ (s.drop 19).take 4 ++
      s.drop 24 = a ++ (b ++ (c ++ (d ++ e))) := by
    simp (disch := omega) [← hs, List.drop_append, List.drop_of_length_le, ha, hb, hc, hd]
  simp only [ofGroups?, hlength, hhyphens, hgroups, guard, and_self, if_true, Option.bind_eq_bind,
    pure, Option.bind_some]

/-- The groups are cut out of the digits. -/
theorem ofGroups?_grouped {ds : List Char} (h : ds.length = 32) :
    ofGroups? (grouped ds) = ofDigits? ds := by
  have hjoined : ds.take 8 ++ ((ds.drop 8).take 4 ++ ((ds.drop 12).take 4 ++
      ((ds.drop 16).take 4 ++ ds.drop 20))) = ds := by
    have hgroup (k : Nat) : (ds.drop k).take 4 ++ ds.drop (k + 4) = ds.drop k := by
      rw [← List.drop_drop, List.take_append_drop]
    rw [hgroup 16, hgroup 12, hgroup 8, List.take_append_drop]
  rw [grouped, ofGroups?_append, hjoined]
  all_goals simp [h]

/-- **An id is read back from its text.** -/
theorem read?_text (id : RowId) : read? id.text = some id := by
  have hgroups : ofGroups? (grouped id.digits) = some id := by
    rw [ofGroups?_grouped (length_digits id), ofDigits?_digits]
  have hlength : (grouped id.digits).length = 36 := by
    simp [grouped, length_digits]
  simp [read?, text, hlength, hgroups]

end RowId

/-! ## Members -/

namespace Json

/-- A text or nothing is read back. -/
theorem optionalText_render (o : Option String) (rest : Bytes) :
    optional textValue (Bytes.ofChars (render (optionalText o)) ++ rest) = .ok (o, rest) := by
  have hform : optionalText o = ofOption .text o := by cases o <;> rfl
  have hread (y : String) :
      textValue (Bytes.ofChars (render (.text y)) ++ rest) = .ok (id y, rest) :=
    textValue_quoted y rest
  rw [hform, optional_render hread first_text, Option.map_id_fun, id]

/-- An instant is read back as it is shown. -/
theorem instant_render (t : Instant) (rest : Bytes) :
    Row.instantReader (Bytes.ofChars (render (.text t.documentText)) ++ rest) =
      .ok (t.shown, rest) := by
  have hread : Instant.read? t.documentText = some t.shown :=
    t.read?_localText (by decide) (by decide) (by decide)
  exact textOf_render hread rest

/-- An instant or nothing is read back as it is shown. -/
theorem optionalInstant_render (o : Option Instant) (rest : Bytes) :
    optional Row.instantReader (Bytes.ofChars (render (Row.instantJson o)) ++ rest) =
      .ok (o.map Instant.shown, rest) := by
  have hform : Row.instantJson o = ofOption (fun t => .text t.documentText) o := by cases o <;> rfl
  rw [hform]
  exact optional_render (fun t => instant_render t rest) (fun t => first_text t.documentText) o

/-- Whatever is read of texts is in order. -/
theorem ordered_of_texts {s rest : Bytes} {d : Dictionary String} (h : texts s = .ok (d, rest)) :
    d.Ordered := by
  simp only [texts] at h
  split at h
  · cases h
  split at h
  · refine keeps_foldMembers (fun k d s d' s' hd hmember => ?_) true _ _ _ _ _
      Dictionary.ordered_nil h
    split at hmember
    · cases hmember
    split at hmember
    · cases hmember
    · cases hmember
      exact hd.insert k _
  · exact absurd h (mismatch_ne_ok _)

end Json

namespace Row

variable {r q : Row} {written : Headers} {ms kept : List (String × Json)}

/-- The members of a stored row, with its headers in the order in which they are written. -/
def members (r : Row) (written : Headers) : List (String × Json) := [
  ("bus_name", .optionalText r.busName),
  ("delivered_on", instantJson r.deliveredOn),
  ("headers", .ofTexts written),
  ("id", .text r.id.text),
  ("lock_expires_on", instantJson r.lockExpires),
  ("lock_instance_id", .optionalText r.lockInstance),
  ("message_type", .text r.messageType.name),
  ("path", .text r.path),
  ("payload", .list (r.payload.map fun b => .nat b.toNat)),
  ("released_by", .optionalText r.releasedBy),
  ("timestamp", .text r.timestamp.documentText)]

theorem toJson_eq (r : Row) : r.toJson = .object (r.members r.headers) := rfl

/-- The row with its instants as they are shown. -/
def shown (r : Row) : Row :=
  { r with
    lockExpires := r.lockExpires.map Instant.shown
    deliveredOn := r.deliveredOn.map Instant.shown
    timestamp := r.timestamp.shown }

/-- A clock can show the instants of the row. -/
structure OnClock (r : Row) : Prop where
  lockExpires : ∀ t ∈ r.lockExpires, t.OnClock
  deliveredOn : ∀ t ∈ r.deliveredOn, t.OnClock
  timestamp : r.timestamp.OnClock

theorem map_shown_eq_iff (o : Option Instant) :
    o.map Instant.shown = o ↔ ∀ t ∈ o, t.OnClock := by
  cases o <;> simp [Instant.shown_eq_iff]

/-- A row is shown as it is if a clock can show its instants, and only then. -/
theorem shown_eq_iff : r.shown = r ↔ r.OnClock := by
  have hfields : r.shown = r ↔ r.lockExpires.map Instant.shown = r.lockExpires ∧
      r.deliveredOn.map Instant.shown = r.deliveredOn ∧ r.timestamp.shown = r.timestamp := by
    obtain ⟨⟩ := r
    simp [shown]
  rw [hfields, map_shown_eq_iff, map_shown_eq_iff, Instant.shown_eq_iff]
  exact ⟨fun ⟨hlock, hdelivered, htime⟩ => ⟨hlock, hdelivered, htime⟩,
    fun h => ⟨h.lockExpires, h.deliveredOn, h.timestamp⟩⟩

/-- The parts of a row when these names have been read. -/
def seen (r : Row) (names : List String) : Parts where
  id := if "id" ∈ names then some r.id else none
  busName := if "bus_name" ∈ names then r.busName else none
  path := if "path" ∈ names then some r.path else none
  messageType := if "message_type" ∈ names then some r.messageType.name else none
  payload := if "payload" ∈ names then some r.payload else none
  headers := if "headers" ∈ names then some r.headers else none
  lockInstance := if "lock_instance_id" ∈ names then r.lockInstance else none
  lockExpires := if "lock_expires_on" ∈ names then r.lockExpires.map Instant.shown else none
  releasedBy := if "released_by" ∈ names then r.releasedBy else none
  deliveredOn := if "delivered_on" ∈ names then r.deliveredOn.map Instant.shown else none
  timestamp := if "timestamp" ∈ names then some r.timestamp.shown else none

theorem unordered_seen (r : Row) : Unordered r.seen := by
  intro l l' hsame
  simp [seen, hsame]

/-- **Every member is read into its part.** -/
theorem reads_members (h : r.headers.Ordered) (hperm : written.Perm r.headers) :
    ∀ m ∈ r.members written, Reads fields r.seen m := by
  have htexts (rest : Bytes) :
      Json.texts (Bytes.ofChars (render (.ofTexts written)) ++ rest) = .ok (r.headers, rest) := by
    rw [Json.texts_ofTexts, Dictionary.ofList_of_perm h hperm]
  simp only [members, List.forall_mem_cons, List.not_mem_nil, false_implies, implies_true, and_true]
  refine ⟨Json.reads_of_putting rfl rfl (fun rest _ => Json.optionalText_render r.busName rest) ?_,
    Json.reads_of_putting rfl rfl
      (fun rest _ => Json.optionalInstant_render r.deliveredOn rest) ?_,
    Json.reads_of_putting rfl rfl (fun rest _ => htexts rest) ?_,
    Json.reads_of_putting rfl rfl
      (fun rest _ => Json.textOf_render (RowId.read?_text r.id) rest) ?_,
    Json.reads_of_putting rfl rfl
      (fun rest _ => Json.optionalInstant_render r.lockExpires rest) ?_,
    Json.reads_of_putting rfl rfl (fun rest _ => Json.optionalText_render r.lockInstance rest) ?_,
    Json.reads_of_putting rfl rfl (fun rest _ => Json.textValue_quoted r.messageType.name rest) ?_,
    Json.reads_of_putting rfl rfl (fun rest _ => Json.textValue_quoted r.path rest) ?_,
    Json.reads_of_putting rfl rfl (fun rest _ => Json.byteList_render r.payload rest) ?_,
    Json.reads_of_putting rfl rfl (fun rest _ => Json.optionalText_render r.releasedBy rest) ?_,
    Json.reads_of_putting rfl rfl (fun rest _ => Json.instant_render r.timestamp rest) ?_⟩
  all_goals
    intro names
    simp [seen]

/-- A document with some of the members, in any order, is read as the row that they make. -/
theorem ofBytes_of_sublist (h : r.headers.Ordered) (hperm : written.Perm r.headers)
    (hkept : kept.Sublist (r.members written)) (hms : ms.Perm kept)
    (hq : ofParts? (r.seen (kept.map (·.1))) = some q) :
    ofBytes (Json.object ms).toBytes = .ok q := by
  have hnames : (ms.map (·.1)).Perm (kept.map (·.1)) := hms.map _
  have hall : ((r.members written).map (·.1)).Nodup := by simp [members]
  have hdistinct : (ms.map (·.1)).Nodup := hnames.nodup_iff.mpr (hall.sublist (hkept.map _))
  have hreads : ∀ m ∈ ms, Reads fields r.seen m := fun m hm =>
    reads_members h hperm m (hkept.subset (hms.mem_iff.mp hm))
  have hsame : r.seen (ms.map (·.1)) = r.seen (kept.map (·.1)) :=
    unordered_seen r _ _ fun _ => hnames.mem_iff
  have hrecord := Json.record_render hreads hdistinct (unordered_seen r) (hsame ▸ hq) []
  have hread : Json.parseAs reader (Json.object ms).toBytes = .ok q :=
    Json.parseAs_of_render hrecord
  simp only [ofBytes, hread]

/-- A stored row is read back as it is shown, in whatever order its members and its headers are
written. -/
theorem ofBytes_of_perm (h : r.headers.Ordered) (hperm : written.Perm r.headers)
    (hms : ms.Perm (r.members written)) : ofBytes (Json.object ms).toBytes = .ok r.shown :=
  ofBytes_of_sublist h hperm (List.Sublist.refl _) hms (by simp [members, seen, ofParts?, shown])

/-- **A stored row is read back as it is shown.** -/
theorem ofBytes_toJson (h : r.headers.Ordered) : ofBytes r.toJson.toBytes = .ok r.shown := by
  rw [toJson_eq]
  exact ofBytes_of_perm h (List.Perm.refl _) (List.Perm.refl _)

/-! ## Rows that are read -/

/-- The parts of a row that can be stored as it is: its headers are in order, and a clock can show
its instants. -/
structure Parts.Storable (p : Parts) : Prop where
  headers : ∀ d ∈ p.headers, d.Ordered
  lockExpires : ∀ t ∈ p.lockExpires, t.OnClock
  deliveredOn : ∀ t ∈ p.deliveredOn, t.OnClock
  timestamp : ∀ t ∈ p.timestamp, t.OnClock

theorem Parts.storable_start : Storable {} := by
  constructor <;> simp

/-- A clock can show what is read as an instant. -/
theorem onClock_of_instantReader (s : Bytes) (t : Instant) (rest : Bytes)
    (h : instantReader s = .ok (t, rest)) : t.OnClock := by
  obtain ⟨text, hread⟩ := Json.of_textOf h
  exact Instant.onClock_of_read? hread

/-- **Every field leaves the parts storable.** -/
theorem storable_fields : ∀ f ∈ fields, Json.Keeps Parts.Storable f.read := by
  have hinstant : ∀ s o rest, Json.optional instantReader s = .ok (o, rest) → ∀ t ∈ o, t.OnClock :=
    fun _ _ _ h => Json.of_optional onClock_of_instantReader h
  have hother {α : Type} {read : Json.Reader α} {put : Parts → α → Parts}
      (hput : ∀ p x, p.Storable → (put p x).Storable) :
      Json.Keeps Parts.Storable (Json.putting read put) :=
    Json.keeps_putting (Q := fun _ => True) (fun _ _ _ _ => trivial) fun p x hp _ => hput p x hp
  simp only [fields, List.forall_mem_cons, List.not_mem_nil, false_implies, implies_true, and_true]
  -- the headers and the three instants are put in as they were read, the others do not matter
  refine ⟨hother ?_, hother ?_, hother ?_, hother ?_, hother ?_,
    Json.keeps_putting (fun _ _ _ => Json.ordered_of_texts) fun p d hp hd =>
      ⟨by simpa using hd, hp.lockExpires, hp.deliveredOn, hp.timestamp⟩,
    hother ?_,
    Json.keeps_putting hinstant fun p o hp ho => ⟨hp.headers, ho, hp.deliveredOn, hp.timestamp⟩,
    hother ?_,
    Json.keeps_putting hinstant fun p o hp ho => ⟨hp.headers, hp.lockExpires, ho, hp.timestamp⟩,
    Json.keeps_putting onClock_of_instantReader fun p t hp ht =>
      ⟨hp.headers, hp.lockExpires, hp.deliveredOn, by simpa using ht⟩⟩
  all_goals exact fun p x hp => ⟨hp.headers, hp.lockExpires, hp.deliveredOn, hp.timestamp⟩

/-- The row of storable parts has its headers in order, and a clock can show its instants. -/
theorem Parts.Storable.row {p : Parts} (hp : p.Storable) (h : ofParts? p = some q) :
    q.headers.Ordered ∧ q.OnClock := by
  simp only [ofParts?, Option.bind_eq_bind, Option.bind_eq_some_iff, Option.some.injEq] at h
  obtain ⟨_, -, _, -, _, -, _, -, headers, hheaders, timestamp, htimestamp, rfl⟩ := h
  exact ⟨hp.headers headers hheaders, hp.lockExpires, hp.deliveredOn,
    hp.timestamp timestamp htimestamp⟩

/-- **What is read from a document can be stored as it is.** -/
theorem storable_of_ofBytes {b : Bytes} (h : ofBytes b = .ok q) :
    q.headers.Ordered ∧ q.OnClock := by
  unfold ofBytes at h
  split at h
  · next hparse =>
    cases h
    obtain ⟨rest, hread⟩ := Json.of_parseAs hparse
    obtain ⟨p, hp, hresult⟩ := Json.exists_of_record Parts.storable_start storable_fields hread
    exact hp.row hresult
  · cases h

/-- **A row is kept by storage.**  A row whose instants a clock can show is read back from its
stored form as it was, so it is sent, may be leased and may be forwarded exactly as before, by every
instance and at every time.  Neither the order of the members nor that of the headers matters, and
without the member that names the instance that gave the row back, the same row is read with no such
instance.

An instant that no clock can show is read back as the one that is shown for it, and no row that was
ever read has such an instant: what is read from any document at all is kept from then on. -/
theorem kept_by_storage (h : r.headers.Ordered) :
    (r.OnClock → ofBytes r.toJson.toBytes = .ok r ∧
      ∀ q, ofBytes r.toJson.toBytes = .ok q → q.isSent = r.isSent ∧
        ∀ inst now, q.claimableBy inst now = r.claimableBy inst now ∧
          q.leasedTo inst now = r.leasedTo inst now) ∧
    (r.shown = r ↔ r.OnClock) ∧
    (∀ (written : Headers) (ms : List (String × Json)), written.Perm r.headers →
      ms.Perm (r.members written) → ofBytes (Json.object ms).toBytes = .ok r.shown) ∧
    (∀ (written : Headers) (ms : List (String × Json)), written.Perm r.headers →
      ms.Perm ((r.members written).filter (·.1 ≠ "released_by")) →
      ofBytes (Json.object ms).toBytes = .ok { r.shown with releasedBy := none }) ∧
    ∀ (b : Bytes) (q : Row), ofBytes b = .ok q → ofBytes q.toJson.toBytes = .ok q := by
  have hkept {q : Row} (hq : q.headers.Ordered) (hclock : q.OnClock) :
      ofBytes q.toJson.toBytes = .ok q := by
    rw [ofBytes_toJson hq, shown_eq_iff.mpr hclock]
  refine ⟨fun hclock => ⟨hkept h hclock, fun q hq => ?_⟩, shown_eq_iff,
    fun written ms hperm hms => ofBytes_of_perm h hperm hms, fun written ms hperm hms => ?_,
    fun b q hb => ?_⟩
  · obtain rfl := Except.ok.inj ((hkept h hclock).symm.trans hq)
    exact ⟨rfl, fun _ _ => ⟨rfl, rfl⟩⟩
  · exact ofBytes_of_sublist h hperm List.filter_sublist hms
      (by simp [members, seen, ofParts?, shown])
  · obtain ⟨hordered, hclock⟩ := storable_of_ofBytes hb
    exact hkept hordered hclock

/-- A row that was delivered in a leap second at the end of the year `0`, and whose retry time is
the earliest instant, with names that have to be escaped. -/
def relic : Row where
  id := ⟨0x0f00000000000000000000000000000a⟩
  busName := some "null"
  path := ""
  messageType := ⟨"\"\\"⟩
  payload := [0, 255, 34]
  headers := [("", "\x00"), ("é", "\n")]
  lockInstance := none
  lockExpires := some Instant.min
  releasedBy := some "\t"
  deliveredOn := some ⟨-62135596801, 1999999999, by decide, by decide, by decide⟩
  timestamp := Instant.max

/-- It is kept, also from the opposite order of its headers and its members, and without the
instance that gave it back. -/
theorem kept_by_storage_relic : relic.headers.Ordered ∧ relic.OnClock ∧
    ofBytes relic.toJson.toBytes = .ok relic ∧
    ofBytes (Json.object (relic.members relic.headers.reverse).reverse).toBytes = .ok relic ∧
    ofBytes (Json.object ((relic.members relic.headers).filter (·.1 ≠ "released_by"))).toBytes =
      .ok { relic with releasedBy := none } := by
  have hordered : relic.headers.Ordered := by decide
  have hclock : relic.OnClock := by
    constructor
    · intro t ht
      obtain rfl := Option.some.inj ht
      decide
    · intro t ht
      obtain rfl := Option.some.inj ht
      decide
    · decide
  obtain ⟨hback, hshown, hany, hwithout, -⟩ := kept_by_storage hordered
  have hreversed := hany relic.headers.reverse _ (List.reverse_perm _) (List.reverse_perm _)
  have hdefault := hwithout relic.headers _ (List.Perm.refl _) (List.Perm.refl _)
  rw [hshown.mpr hclock] at hreversed hdefault
  exact ⟨hordered, hclock, (hback hclock).1, hreversed, hdefault⟩

/-- A row whose lease runs out in a leap second within a minute. -/
def stray : Row where
  id := ⟨1⟩
  busName := none
  path := "orders"
  messageType := ⟨"OrderPlaced"⟩
  payload := [123, 125]
  headers := []
  lockInstance := some "worker"
  lockExpires := some ⟨29, 1400000000, by decide, by decide, by decide⟩
  timestamp := .epoch

/-- **A leap second within a minute is stored as another instant.**  The lease of such a row has run
out for everybody; when the row is read back, the lease holds on for a second. -/
theorem lease_prolonged_by_storage : stray.headers.Ordered ∧ ∃ (q : Row) (now : Instant),
    ofBytes stray.toJson.toBytes = .ok q ∧ q ≠ stray ∧
    stray.leasedTo "worker" now = false ∧ q.leasedTo "worker" now = true ∧
    stray.claimableBy "other" now = true ∧ q.claimableBy "other" now = false :=
  ⟨by decide, stray.shown, ⟨30, 200000000, by decide, by decide, by decide⟩,
    ofBytes_toJson (by decide), by decide, by decide, by decide, by decide, by decide⟩

end Row

end Courier

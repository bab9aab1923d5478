import Courier.Proofs.Requests.Conversation
import Courier.Proofs.Time.Order
import Courier.Proofs.Time.Text

/-!
# Deadlines

The instant from which on nobody awaits a response is kept twice: in the entry of the request, where
sweeps look at it, and as text in a header, where the responder does.  Both are the instant at which
the request is made plus its timeout, cut off at the latest instant (`Instant.IsSum`), and the
header is read back as that instant, over a transport of either kind.

A text shows an instant that a clock can show: a leap second ends its minute.  Instants that are
read from texts, counted in nanoseconds or reached from such instants by moving are of this kind.  A
clock that is set to a leap second in the middle of a minute shows another one, and then header and
entry may differ (`Bus.header_disagrees_off_clock`).

Main statement: `Bus.header_agrees_with_entry`.
-/

namespace Courier

namespace Instant

/-- An instant is a start plus a span, cut off at the latest instant.  From within a leap second a
short span leads to an instant within it, and a longer one counts from the second before, unless the
start lies behind the latest instant already. -/
structure IsSum (t : Instant) (d : Span) (u : Instant) : Prop where
  plain : t.isLeap = false →
    u.isLeap = false ∧ u.nanoseconds = Min.min (t.nanoseconds + d.nanoseconds) max.nanoseconds
  within : t.isLeap = true → t.fraction + d.nanoseconds < 2000000000 →
    u.second = t.second ∧ u.fraction = t.fraction + d.nanoseconds
  leaving : t.isLeap = true → t < max → 2000000000 ≤ t.fraction + d.nanoseconds →
    u.isLeap = false ∧
      u.nanoseconds = Min.min (t.nanoseconds - 1000000000 + d.nanoseconds) max.nanoseconds

theorem isSum_add (t : Instant) (d : Span) : t.IsSum d (t.add d) where
  plain h := add_nanoseconds h d
  within := add_of_within
  leaving hleap _ := add_of_leaving hleap

end Instant

namespace Envelope

variable {e : Envelope} {t : Instant}

/-- The expiry header of an envelope is read as the instant that it shows. -/
theorem expires_of_headerText (h : e.headers.find? expiresHeader = some t.headerText) :
    e.expires = .ok (some t.shown) := by
  simp only [expires, header?, h, Instant.read?_headerText]

/-- It is read back exactly if a clock can show it. -/
theorem expires_eq_iff (h : e.headers.find? expiresHeader = some t.headerText) :
    e.expires = .ok (some t) ↔ t.OnClock := by
  rw [expires_of_headerText h, ← Instant.shown_eq_iff]
  simp

end Envelope

namespace Bus

variable {τ ι κ : Type} {b : Bus τ ι κ} {native : Bool} {settings : RequestResponseSettings}
variable {s u : PendingStore} {id : RequestId} {now : Instant} {d : RequestDraft} {q : Request}
variable {p : Producer} {e : PendingRequest} {content : Envelope} {timeout : Span}

/-- The timeout of a request: what its caller says, or else its producer, or else the bus. -/
theorem requestTimeout_eq (settings : RequestResponseSettings) (p : Producer) (o : RequestOptions) :
    requestTimeout settings p o =
      match o.timeout, p.timeout with
      | some given, _ => given
      | none, some produced => produced
      | none, none => settings.timeout := by
  unfold requestTimeout
  cases o.timeout <;> cases p.timeout <;> rfl

/-- What the entry of a request and the headers that go out with it say of its end. -/
structure Dated (now : Instant) (timeout : Span) (e : PendingRequest) (content : Envelope) :
    Prop where
  created : e.created = now
  expires : e.expires = now.add timeout
  header : content.headers.find? expiresHeader = some e.expires.headerText

/-- A request that is opened is dated by its timeout, over a transport of either kind. -/
theorem openRequest_dated (hordered : d.options.headers.Ordered)
    (h : b.openRequest native settings s id now d = .ok (u, q)) :
    ∃ p e m content, b.producer d.request.type = .ok p ∧ u.find? id = some e ∧
      q.stage = .producing m ∧ m.opened native = .ok content ∧
      Dated now (requestTimeout settings p d.options) e content := by
  obtain ⟨e, m, -, hfind, hcreated, -, hstage, hopened⟩ := openRequest_ok h
  obtain ⟨p, hproducer, hexpires⟩ := hopened.expires
  obtain ⟨message, hcomposes, rfl⟩ := openRequest_composes h hfind hstage
  have hheaders : message.headers.Ordered := by
    rw [hcomposes.headers]
    exact ordered_requestHeaders hordered settings e.id e.expires
  have hsees := Conversation.seesRequest_of_composes hcomposes
  exact ⟨p, e, _, _, hproducer, hfind, hstage, TransportMessage.opened_wrap native hheaders,
    hcreated, hcreated ▸ hexpires, hsees.expires⟩

/-- The header of a dated request is read back, and a sweep that goes by the time alone finds the
entry due exactly when what was read has come. -/
theorem Dated.agrees (h : Dated now timeout e content) (hnow : now.OnClock) (hmem : e ∈ u.entries) :
    content.expires = .ok (some e.expires) ∧
      ∀ at_ parsed, content.expires = .ok (some parsed) →
        (e ∈ u.due (fun _ => false) at_ ↔ parsed ≤ at_) := by
  have hclock : e.expires.OnClock := by
    rw [h.expires]
    exact Instant.onClock_add hnow timeout
  have hread := (Envelope.expires_eq_iff h.header).mpr hclock
  refine ⟨hread, ?_⟩
  intro at_ parsed hparsed
  obtain rfl := Option.some.inj (Except.ok.inj (hread.symm.trans hparsed))
  simp [PendingStore.due, PendingRequest.isDue, hmem]

/-- **The expiry header and the sweeps agree.**  A request that goes out, at any time and with any
timeout of its caller, its producer or its bus, in this order, is pending until the saturating sum
of both.  Its header shows that instant and is read back as that instant, exactly if a clock can
show it, and it can if the clock of the bus did; so the entry is due by time exactly from the
instant on that is read.  A clock shows whatever is counted in nanoseconds, read from a text, or
reached by moving. -/
theorem header_agrees_with_entry (hordered : d.options.headers.Ordered)
    (h : b.openRequest native settings s id now d = .ok (u, q)) :
    (∃ p e m content timeout, b.producer d.request.type = .ok p ∧ u.find? id = some e ∧
      q.stage = .producing m ∧ m.opened native = .ok content ∧
      timeout = (match d.options.timeout, p.timeout with
        | some given, _ => given
        | none, some produced => produced
        | none, none => settings.timeout) ∧
      e.created = now ∧ now.IsSum timeout e.expires ∧
      content.header? expiresHeader = some e.expires.headerText ∧
      (content.expires = .ok (some e.expires) ↔ e.expires.OnClock) ∧
      (now.OnClock → content.expires = .ok (some e.expires) ∧
        ∀ at_ parsed, content.expires = .ok (some parsed) →
          (e ∈ u.due (fun _ => false) at_ ↔ parsed ≤ at_))) ∧
    (∀ t : Instant, Instant.read? t.headerText = some t ↔ t.OnClock) ∧
    (∀ k t, Instant.ofNanoseconds? k = some t → t.OnClock) ∧
    (∀ text t, Instant.read? text = some t → t.OnClock) ∧
    ∀ (t : Instant) (span : Span), t.OnClock → (t.add span).OnClock ∧ (t.sub span).OnClock := by
  obtain ⟨p, e, m, content, hproducer, hfind, hstage, hopen, hdated⟩ := openRequest_dated hordered h
  refine ⟨⟨p, e, m, content, _, hproducer, hfind, hstage, hopen, requestTimeout_eq ..,
    hdated.created, ?_, hdated.header, Envelope.expires_eq_iff hdated.header, ?_⟩, ?_, ?_, ?_, ?_⟩
  · rw [hdated.expires]
    exact Instant.isSum_add now _
  · intro hnow
    exact hdated.agrees hnow (PendingStore.mem_of_find? hfind)
  · intro t
    rw [Instant.read?_headerText, Option.some.injEq]
    exact Instant.shown_eq_iff
  · exact fun k t hcount => Instant.onClock_of_ofNanoseconds? hcount
  · exact fun text t hread => Instant.onClock_of_read? hread
  · exact fun t span hclock => ⟨Instant.onClock_add hclock span, Instant.onClock_sub hclock span⟩

/-- A request with the longest span as its timeout, whose caller has set an expiry of its own. -/
def endless : RequestDraft :=
  { Exchange.question with
    options := { headers := [("Expires", "never")], timeout := some ⟨18446744073709551615999999999⟩ } }

theorem ordered_endless : endless.options.headers.Ordered := by decide

/-- The middle of a leap second at the end of the ides of March. -/
def ides : Instant := ⟨-63517737601, 1500000000, by decide, by decide, by decide⟩

theorem exists_openRequest_endless : ∃ (u : PendingStore) (q : Request),
    Exchange.asking.openRequest false {} {} ⟨"a"⟩ ides endless = .ok (u, q) ∧
    (u.find? ⟨"a"⟩).map (·.expires) = some Instant.max :=
  ⟨_, _, rfl, rfl⟩

/-- Over a transport without headers a request without end expires at the latest instant, for the
sweeps and for the responder. -/
theorem header_agrees_with_entry_endless : ∃ (u : PendingStore) (q : Request) (e : PendingRequest)
    (m : TransportMessage) (content : Envelope),
    endless.options.headers.Ordered ∧
    Exchange.asking.openRequest false {} {} ⟨"a"⟩ ides endless = .ok (u, q) ∧
    u.find? ⟨"a"⟩ = some e ∧ q.stage = .producing m ∧ m.opened false = .ok content ∧
    content.header? "Expires" = some "+262142-12-31T23:59:59.999999999+00:00" ∧
    content.expires = .ok (some Instant.max) ∧ e ∉ u.due (fun _ => false) ides := by
  obtain ⟨u, q, hok, hlatest⟩ := exists_openRequest_endless
  obtain ⟨⟨p, e, m, content, timeout, -, hfind, hstage, hopen, -, -, -, hheader, -, hagrees⟩, -⟩ :=
    header_agrees_with_entry ordered_endless hok
  have hexpires : e.expires = Instant.max := by simpa [hfind] using hlatest
  obtain ⟨hread, hdue⟩ := hagrees (by decide)
  rw [hexpires] at hheader hread
  have htext : Instant.max.headerText = "+262142-12-31T23:59:59.999999999+00:00" := by decide +kernel
  refine ⟨u, q, e, m, content, ordered_endless, hok, hfind, hstage, hopen, ?_, hread, ?_⟩
  · exact htext ▸ hheader
  · exact fun hmem => absurd ((hdue ides Instant.max hread).mp hmem) (by decide)

/-- A leap second half a minute after the start of 1970. -/
def astray : Instant := ⟨30, 1500000000, by decide, by decide, by decide⟩

/-- A request that is given up after a tenth of a second. -/
def hasty : RequestDraft := { Exchange.question with options := { timeout := some ⟨100000000⟩ } }

theorem exists_openRequest_hasty : ∃ (u : PendingStore) (q : Request),
    Exchange.asking.openRequest true {} {} ⟨"a"⟩ astray hasty = .ok (u, q) :=
  ⟨_, _, rfl⟩

/-- **A leap second within a minute is shown as another instant.**  A request that is made then
expires a second earlier than its header says: sweeps give it up while the responder reads that
there is time left. -/
theorem header_disagrees_off_clock :
    Instant.read? astray.headerText = some ⟨31, 500000000, by decide, by decide, by decide⟩ ∧
    ∃ (u : PendingStore) (q : Request) (e : PendingRequest) (m : TransportMessage)
      (content : Envelope) (parsed at_ : Instant),
      Exchange.asking.openRequest true {} {} ⟨"a"⟩ astray hasty = .ok (u, q) ∧
      u.find? ⟨"a"⟩ = some e ∧ q.stage = .producing m ∧ m.opened true = .ok content ∧
      content.expires = .ok (some parsed) ∧ parsed ≠ e.expires ∧
      e ∈ u.due (fun _ => false) at_ ∧ ¬parsed ≤ at_ := by
  obtain ⟨u, q, hok⟩ := exists_openRequest_hasty
  obtain ⟨p, e, m, content, -, hfind, hstage, hopen, hdated⟩ :=
    openRequest_dated (d := hasty) (by decide) hok
  have hread := Envelope.expires_of_headerText hdated.header
  have hexpires : e.expires = ⟨30, 1600000000, by decide, by decide, by decide⟩ := by
    rw [hdated.expires, requestTimeout_eq]
    show astray.add ⟨100000000⟩ = _
    decide
  refine ⟨?_, u, q, e, m, content, _, ⟨31, 0, by decide, by decide, by decide⟩, hok, hfind, hstage,
    hopen, hread, ?_, ?_, ?_⟩
  · rw [Instant.read?_headerText]
    decide
  · rw [hexpires]
    decide
  · have hdue : e.isDue (fun _ => false) ⟨31, 0, by decide, by decide, by decide⟩ = true := by
      simp only [PendingRequest.isDue, hexpires]
      decide
    exact List.mem_filter.mpr ⟨PendingStore.mem_of_find? hfind, hdue⟩
  · rw [hexpires]
    decide

end Bus
end Courier

import PredictionEdge.EventLog.Passes

/-!
# What a chain hash commits to

Each event's hash covers the hash before it, its metadata and its payload. So two readings
that cover the same sequence numbers and end in the same hash read the same events, as
long as no two of the events collide under the hash. Nothing is assumed of the hash on
other inputs.
-/

namespace PredictionEdge.EventLog

variable {lib : Libraries} {s s' t t' u : ScanState} {raw raw' : Bytes}
  {items items' : List (ScanState × EventEnvelope)} {e e' : EventEnvelope}

/-- The text of the canonical metadata tells the metadata, and where it ends. -/
def Libraries.Canonical (lib : Libraries) : Prop :=
  ∀ {c c' : CanonicalFields} {j j' p p' : Bytes}, lib.canonicalJson c = .ok j →
    lib.canonicalJson c' = .ok j' → j ++ p = j' ++ p' → c = c' ∧ p = p'

/-- What an event's chain hash is the hash of. -/
def EventEnvelope.chainInput (lib : Libraries) (e : EventEnvelope) : Bytes :=
  e.prevHash.bytes ++ (lib.canonicalJson (e.hashInput.canonicalFields lib)).toOption.getD [] ++ e.payload

/-- No two of the events have one chain hash for two inputs. -/
def NoCollision (lib : Libraries) (events : List EventEnvelope) : Prop :=
  ∀ e ∈ events, ∀ e' ∈ events, lib.blake3 (e.chainInput lib) = lib.blake3 (e'.chainInput lib) →
    e.chainInput lib = e'.chainInput lib

instance {events : List EventEnvelope} : Decidable (NoCollision lib events) :=
  inferInstanceAs (Decidable (∀ e ∈ events, ∀ e' ∈ events, _ → _))

theorem VerifiedFrame.chained (h : VerifiedFrame lib s raw e t) :
    ∃ canonical, lib.canonicalJson (e.hashInput.canonicalFields lib) = .ok canonical ∧
      e.chainInput lib = e.prevHash.bytes ++ canonical ++ e.payload ∧
      lib.blake3 e.payload = e.rawPayloadHash ∧ lib.blake3 (e.chainInput lib) = e.thisHash := by
  obtain ⟨_, _, canonical, hc⟩ := h.linked
  obtain ⟨hjson, hraw, hthis⟩ := computeHashes_ok.mp hc
  have hinput : e.chainInput lib = e.prevHash.bytes ++ canonical ++ e.payload := by
    unfold EventEnvelope.chainInput
    rw [hjson]
    rfl
  refine ⟨canonical, hjson, hinput, hraw, ?_⟩
  rw [hinput]
  exact hthis

/-- **Two verified events with one chain input are one event.** -/
theorem VerifiedFrame.event_eq (hlib : lib.Canonical) (h : VerifiedFrame lib s raw e t)
    (h' : VerifiedFrame lib s' raw' e' t') (heq : e.chainInput lib = e'.chainInput lib) : e = e' := by
  obtain ⟨canonical, hjson, hinput, hraw, hthis⟩ := h.chained
  obtain ⟨canonical', hjson', hinput', hraw', hthis'⟩ := h'.chained
  have hthis_eq : e.thisHash = e'.thisHash := by rw [← hthis, ← hthis', heq]
  rw [hinput, hinput', List.append_assoc, List.append_assoc] at heq
  obtain ⟨hprev, hrest⟩ := List.append_inj heq
    (e.prevHash.length_eq.trans e'.prevHash.length_eq.symm)
  obtain ⟨hfields, hpayload⟩ := hlib hjson hjson' hrest
  have hraw_eq : e.rawPayloadHash = e'.rawPayloadHash := by rw [← hraw, ← hraw', hpayload]
  have hprev_eq : e.prevHash = e'.prevHash := Hash.ext_bytes hprev
  simp only [HashInput.canonicalFields, EventEnvelope.hashInput, CanonicalFields.mk.injEq] at hfields
  obtain ⟨hcontent, hobserved, hparser, _, _, hreceived, hschema, hseq, hsource⟩ := hfields
  obtain ⟨⟨seq⟩, source, schema, parser, observed, received, content, rawHash, prev, this, payload⟩ := e
  obtain ⟨⟨seq'⟩, source', schema', parser', observed', received', content', rawHash', prev', this',
    payload'⟩ := e'
  simp only at hcontent hobserved hparser hreceived hschema hseq hsource hprev_eq hthis_eq hraw_eq hpayload
  subst hcontent hobserved hparser hreceived hschema hseq hsource hprev_eq hthis_eq hraw_eq hpayload
  rfl

theorem NoCollision.mono {events more : List EventEnvelope} (h : NoCollision lib more)
    (hsub : ∀ e ∈ events, e ∈ more) : NoCollision lib events :=
  fun e he e' he' => h e (hsub e he) e' (hsub e' he')

/-- Two verified events with one hash are one event, when they do not collide. -/
theorem VerifiedFrame.event_eq_of_hash (hlib : lib.Canonical) (h : VerifiedFrame lib s raw e t)
    (h' : VerifiedFrame lib s' raw' e' t') {events : List EventEnvelope} (hno : NoCollision lib events)
    (he : e ∈ events) (he' : e' ∈ events) (hhash : t.previousHash = t'.previousHash) : e = e' := by
  obtain ⟨_, _, _, _, hthis⟩ := h.chained
  obtain ⟨_, _, _, _, hthis'⟩ := h'.chained
  refine h.event_eq hlib h' (hno e he e' he' ?_)
  rw [h.after, h'.after] at hhash
  rw [hthis, hthis']
  exact hhash

/--
**A hash commits to the events before it.**

Two readings that begin at one sequence number and end at one sequence number and hash read
the same events. The induction takes the last frames off: they have one hash, so they hold
one event, and the event names the hash before it.
-/
theorem Frames.events_eq (hlib : lib.Canonical) {n : Nat} : ∀ {s s' t t' : ScanState} {raw raw' : Bytes}
    {items items' : List (ScanState × EventEnvelope)}, items.length = n → Frames lib s raw items t →
    Frames lib s' raw' items' t' → NoCollision lib ((items ++ items').map Prod.snd) →
    s.nextSequence = s'.nextSequence → t.nextSequence = t'.nextSequence →
    t.previousHash = t'.previousHash → items.map Prod.snd = items'.map Prod.snd := by
  induction n with
  | zero =>
    intro s s' t t' raw raw' items items' hlen h h' _ hstart hseq _
    have hitems := Frames.nextSequence_eq h
    have hitems' := Frames.nextSequence_eq h'
    have hlen' : items'.length = 0 := by omega
    rw [List.length_eq_zero_iff.mp hlen, List.length_eq_zero_iff.mp hlen']
  | succ n ih =>
    intro s s' t t' raw raw' items items' hlen h h' hno hstart hseq hhash
    have hcount := Frames.nextSequence_eq h
    have hcount' := Frames.nextSequence_eq h'
    rcases h.eq_nil_or_snoc with ⟨_, rfl, _⟩ | ⟨u, front, frame, e, init, _, rfl, hinit, hlast⟩
    · simp at hlen
    rcases h'.eq_nil_or_snoc with ⟨_, rfl, _⟩ | ⟨u', front', frame', e', init', _, rfl, hinit', hlast'⟩
    · rw [List.length_nil] at hcount'
      omega
    obtain rfl : e = e' := hlast.event_eq_of_hash hlib hlast' hno (by simp) (by simp) hhash
    obtain ⟨hs, hp, _⟩ := hlast.linked
    obtain ⟨hs', hp', _⟩ := hlast'.linked
    have hu : u.nextSequence = u'.nextSequence := EventSeq.mk.inj (hs.symm.trans hs')
    have hinits := ih (by simpa using hlen) hinit hinit'
      (hno.mono fun d hd => by
        simp only [List.map_append, List.mem_append] at hd ⊢
        rcases hd with hd | hd
        · exact .inl (.inl hd)
        · exact .inr (.inl hd)) hstart hu (hp.symm.trans hp')
    rw [List.map_append, List.map_append, hinits]
    rfl

end PredictionEdge.EventLog

import UnifiAlerts.PushDedup
import UnifiAlerts.Webhook

/-!
# Which keys the push deduplication merges

The deduplication sees the text of a key: `from_webhook_payload` takes
`str()` of the raw value, an empty string when there is none, and cuts it
to 64 characters (`keyText`). Two raw keys `Collide` when they give one
non-empty text without being the same non-empty key.

An `Inbox` is a coordinator with the pushes it has applied, each with the
raw key of its payload. It takes webhook requests and everything else
that can happen to a coordinator, in any order. The applied pushes are the
reference of the push deduplication, text by text (`Tracks`), and two of one
text are a window apart (`Spaced`), so at most one of them can suppress a
delivery.
-/

namespace UnifiAlerts

open Py Lib

/-! ## Raw keys -/

/-- The key of an alert whose payload has `k` under `key`. -/
def keyText (text : Text) (k : Option Json) : String := slice (text.str (k.getD (.str ""))) 64

/-- Absent, null or empty. -/
def isKeyless : Option Json → Bool
  | none => true
  | some .null => true
  | some (.str s) => s == ""
  | some (.arr xs) => xs.isEmpty
  | some (.obj kvs) => kvs.isEmpty
  | some _ => false

/-- One key, sent as the same JSON value, and one that stands for a key at all. -/
structure SameKey (k k' : Option Json) : Prop where
  eq : k = k'
  keyed : isKeyless k' = false

/-- One non-empty text, but not one non-empty key: the deduplication takes the two for
one, and a reader of the payloads would not. -/
structure Collide (text : Text) (k k' : Option Json) : Prop where
  sameText : keyText text k = keyText text k'
  nonempty : keyText text k' ≠ ""
  differ : ¬SameKey k k'

theorem slice_eq_empty_iff {s : String} {n : Nat} (hn : 0 < n) : slice s n = "" ↔ s = "" := by
  rw [← String.toList_inj, ← String.toList_inj, slice_toList, String.toList_empty,
    List.take_eq_nil_iff]
  exact or_iff_right (by omega)

theorem int_toString_ne_empty (n : Int) : toString n ≠ "" := by
  cases n with
  | ofNat m => exact Nat.repr_ne_empty
  | negSucc m =>
      intro h
      have hlen := congrArg (fun s => s.toList.length) h
      simp [toString, Int.repr] at hlen

/-- A key that is there and not empty has a text. -/
theorem keyText_ne_empty {text : Text} (hstr : ∀ v, text.strOther v ≠ "") {k : Option Json}
    (hk : isKeyless k = false) : keyText text k ≠ "" := by
  rw [keyText, ne_eq, slice_eq_empty_iff (by omega)]
  cases k with
  | none => cases hk
  | some v =>
      cases v with
      | null => cases hk
      | bool b => cases b <;> simp [Text.str]
      | int n => exact int_toString_ne_empty n
      | float x => exact hstr _
      | str s => simpa [isKeyless] using hk
      | arr xs => exact hstr _
      | obj kvs => exact hstr _

/-- String keys collide when they differ after their first 64 characters only. -/
theorem collide_str_iff {text : Text} {s t : String} :
    Collide text (some (.str s)) (some (.str t)) ↔
      slice s 64 = slice t 64 ∧ t ≠ "" ∧ s ≠ t := by
  have hempty := @slice_eq_empty_iff t 64 (by omega)
  constructor
  · rintro ⟨hsame, hne, hdiffer⟩
    have ht : t ≠ "" := fun ht => hne (hempty.mpr ht)
    exact ⟨hsame, ht, fun hst => hdiffer ⟨by rw [hst], by simpa [isKeyless] using ht⟩⟩
  · rintro ⟨hsame, ht, hst⟩
    refine ⟨hsame, fun h => ht (hempty.mp h), fun h => hst ?_⟩
    exact Json.str.inj (Option.some.inj h.eq)

/-- A value without identity collides with itself as soon as it prints as anything. -/
theorem collide_self_iff {text : Text} {k : Option Json} :
    Collide text k k ↔ isKeyless k = true ∧ keyText text k ≠ "" := by
  constructor
  · rintro ⟨-, hne, hdiffer⟩
    refine ⟨?_, hne⟩
    by_contra hk
    exact hdiffer ⟨rfl, by simpa using hk⟩
  · rintro ⟨hk, hne⟩
    exact ⟨rfl, hne, fun h => Bool.false_ne_true (h.keyed.symm.trans hk)⟩

/-! ## Deliveries -/

/-- One webhook request on the endpoint of `category`, and the bytes read of its body. -/
structure Delivery where
  now : Reading
  category : Category
  request : WebhookRequest
  raw : List UInt8

namespace Handler

/-- The handler registered for a category. -/
def forCategory (h : Handler) (c : Category) : Handler := { h with category := c.name }

def receive (h : Handler) (d : Delivery) : Outcome :=
  (h.forCategory d.category).handleWebhook d.now.wall d.request d.raw

/-- The object a body carries. -/
def payloadOf (h : Handler) (d : Delivery) : JsonObj :=
  match decodeBody h.loads d.raw with
  | .payload (.obj payload) => payload
  | _ => []

def rawKey (h : Handler) (d : Delivery) : Option Json := (h.payloadOf d).lookup "key"

theorem alertOf_key (h : Handler) {c : Category} {now : Instant} {payload : JsonObj}
    {alert : UniFiAlert} (halert : (h.forCategory c).alertOf now (.obj payload) = .ok alert) :
    alert.key = keyText h.text (payload.lookup "key") := by
  obtain ⟨-, -, halert⟩ := bind_eq_ok.mp halert
  obtain ⟨p, hp, halert⟩ := bind_eq_ok.mp halert
  obtain rfl := Except.ok.inj hp
  obtain rfl := Except.ok.inj halert
  rfl

/-- A request ends with no push, or with the push of the object it carried. -/
theorem receive_callbacks (h : Handler) (d : Delivery) :
    (h.receive d).callbacks = [] ∨
      ∃ alert, (h.forCategory d.category).alertOf d.now.wall (.obj (h.payloadOf d)) = .ok alert ∧
        (h.receive d).callbacks = [(d.category.name, alert)] := by
  unfold receive handleWebhook
  split
  · exact Or.inl rfl
  · split
    · exact Or.inl rfl
    · split
      · exact Or.inl rfl
      · unfold deliver
        split
        · exact Or.inl rfl
        · exact Or.inl rfl
        · exact Or.inl rfl
        · rename_i v hbody
          split
          · exact Or.inl rfl
          · rename_i alert halert
            obtain ⟨payload, rfl⟩ := alertOf_ok_iff.mp ⟨alert, halert⟩
            have hpayload : h.payloadOf d = payload := by
              have hbody' : decodeBody h.loads d.raw = .payload (.obj payload) := hbody
              rw [payloadOf, hbody']
            -- a callback that raises has been called all the same
            refine Or.inr ⟨alert, by rw [hpayload]; exact halert, ?_⟩
            split <;> rfl

end Handler

/-! ## The inbox -/

structure AppliedPush where
  category : Category
  key : Option Json
  mono : ℚ

/-- The coordinator and the pushes it has applied. -/
structure Inbox where
  coord : Coordinator
  applied : List AppliedPush

/-- What reaches a coordinator: a webhook request, or anything else that happens to it. -/
inductive Arrival
  | webhook (d : Delivery)
  | other (t : {t : TimedOp // ∀ category alert, t.op ≠ .push category alert})

def Arrival.mono : Arrival → ℚ
  | .webhook d => d.now.mono
  | .other t => t.val.now.mono

namespace Inbox

/-- The push callback of a delivery. -/
def push (config : UniFiClientConfig) (h : Handler) (d : Delivery) (w : Inbox)
    (callback : String × UniFiAlert) : Inbox where
  coord := (Coordinator.pushAlert config w.coord d.now.mono callback.1 callback.2).coord
  applied := match Coordinator.pushVerdict config w.coord d.now.mono callback.1 callback.2 with
    | .ok (.accepted c) => w.applied ++ [⟨c, h.rawKey d, d.now.mono⟩]
    | _ => w.applied

def webhook (config : UniFiClientConfig) (h : Handler) (w : Inbox) (d : Delivery) : Inbox :=
  (h.receive d).callbacks.foldl (push config h d) w

def step (config : UniFiClientConfig) (h : Handler) (w : Inbox) : Arrival → Inbox
  | .webhook d => w.webhook config h d
  | .other t => { w with coord := Coordinator.step config w.coord t.val }

/-- The applied pushes as the push deduplication's reference sees them. -/
def texts (text : Text) (applied : List AppliedPush) : List Accepted :=
  applied.map fun a => ((a.category.name, keyText text a.key), a.mono)

/-- Two applied pushes of one category and one text are a window apart. -/
def Spaced (text : Text) (applied : List AppliedPush) : Prop :=
  applied.Pairwise fun a b => a.category = b.category → keyText text a.key = keyText text b.key →
    keyText text b.key ≠ "" → webhookDedupWindowSeconds ≤ b.mono - a.mono

/-- Applied to the category of `d` less than a window before it. -/
structure Recent (d : Delivery) (a : AppliedPush) : Prop where
  category : a.category = d.category
  window : d.now.mono - a.mono < webhookDedupWindowSeconds

/-- The invariant of an inbox: the coordinator follows the reference on the texts of the
keys, and no two pushes of one text are closer than a window. -/
structure Kept (config : UniFiClientConfig) (text : Text) (initial : Category → Int) (now : ℚ)
    (w : Inbox) : Prop where
  tracks : Tracks config initial now w.coord (texts text w.applied)
  spaced : Spaced text w.applied
  past : ∀ a ∈ w.applied, a.mono ≤ now

theorem suppressedBy_texts_iff {text : Text} {applied : List AppliedPush} {d : Delivery}
    {key : String} :
    SuppressedBy webhookDedupWindowSeconds d.now.mono (keyed (texts text applied))
        (d.category.name, key) ↔
      key ≠ "" ∧ ∃ a ∈ applied, Recent d a ∧ keyText text a.key = key := by
  constructor
  · rintro ⟨t, hmem, hlt⟩
    obtain ⟨hmem, hkey⟩ := List.mem_filter.mp hmem
    obtain ⟨a, ha, heq⟩ := List.mem_map.mp hmem
    obtain ⟨hslot, rfl⟩ := Prod.mk.inj heq
    obtain ⟨hcat, rfl⟩ := Prod.mk.inj hslot
    exact ⟨by simpa using hkey, a, ha, ⟨Category.name_injective hcat, hlt⟩, rfl⟩
  · rintro ⟨hkey, a, ha, ⟨hcat, hlt⟩, rfl⟩
    refine ⟨a.mono, List.mem_filter.mpr ⟨List.mem_map.mpr ⟨a, ha, ?_⟩, by simpa using hkey⟩, hlt⟩
    rw [hcat]

/-- What the dedup decides on a delivery, in terms of the pushes applied so far. -/
theorem refAccepts_texts_iff {config : UniFiClientConfig} {h : Handler}
    {applied : List AppliedPush} {d : Delivery} {alert : UniFiAlert}
    (hkey : alert.key = keyText h.text (h.rawKey d)) :
    refAccepts config (texts h.text applied) d.now.mono d.category.name alert = true ↔
      config.enabled d.category = true ∧
        severityGate config d.category.name alert.severity = true ∧
        ∀ a ∈ applied, Recent d a → keyText h.text a.key = keyText h.text (h.rawKey d) →
          keyText h.text (h.rawKey d) = "" := by
  have hcat : Category.ofName? d.category.name = some d.category :=
    Category.ofName?_eq_some.mpr rfl
  rw [refAccepts_iff, hcat, suppressedBy_texts_iff, hkey]
  constructor
  · rintro ⟨c, hc, henabled, hgate, hfree⟩
    obtain rfl := Option.some.inj hc
    refine ⟨henabled, hgate, fun a ha hrecent hsame => ?_⟩
    by_contra hne
    rcases hfree with hempty | hfree
    · exact hne hempty
    · exact hfree ⟨hne, a, ha, hrecent, hsame⟩
  · rintro ⟨henabled, hgate, hfree⟩
    refine ⟨d.category, rfl, henabled, hgate, ?_⟩
    by_cases hne : keyText h.text (h.rawKey d) = ""
    · exact Or.inl hne
    · exact Or.inr fun ⟨_, a, ha, hrecent, hsame⟩ => hne (hfree a ha hrecent hsame)

namespace Kept

variable {config : UniFiClientConfig} {h : Handler} {initial : Category → Int} {now now' : ℚ}
  {w : Inbox}

theorem start {coord : Coordinator} (hstart : Started config coord) (text : Text) (now : ℚ) :
    Kept config text (fun c => (coord.states c).alertCount) now ⟨coord, []⟩ where
  tracks := .start hstart now
  spaced := .nil
  past := by simp

theorem advance (hw : Kept config h.text initial now w) (hle : now ≤ now') :
    Kept config h.text initial now' w where
  tracks := hw.tracks.advance hle
  spaced := hw.spaced
  past := fun a ha => (hw.past a ha).trans hle

theorem push {d : Delivery} (hw : Kept config h.text initial d.now.mono w) {alert : UniFiAlert}
    (hkey : alert.key = keyText h.text (h.rawKey d)) :
    Kept config h.text initial d.now.mono (w.push config h d (d.category.name, alert)) := by
  have htracks := hw.tracks.push d.category.name alert d.now.wall
  unfold Inbox.push
  cases haccepts : refAccepts config (texts h.text w.applied) d.now.mono d.category.name alert with
  | false =>
      have hrefused := hw.tracks.refused haccepts
      simp only [refStep, haccepts, Bool.false_eq_true, if_false] at htracks
      split
      · rename_i c hv
        exact absurd hv (hrefused c)
      · exact ⟨htracks, hw.spaced, hw.past⟩
  | true =>
      obtain ⟨c, hv⟩ := hw.tracks.accepts_iff.mp haccepts
      obtain rfl : c = d.category := by
        have hcat := (Coordinator.pushVerdict_accepted_iff.mp hv).1
        exact Category.name_injective (Category.ofName?_eq_some.mp hcat)
      simp only [refStep, haccepts, if_true] at htracks
      obtain ⟨-, -, hfree⟩ := (refAccepts_texts_iff hkey).mp haccepts
      dsimp only
      rw [hv]
      refine ⟨?_, ?_, ?_⟩
      · show Tracks _ _ _ _ (texts h.text (w.applied ++ [_]))
        rw [texts, List.map_append, List.map_singleton, ← hkey]
        exact htracks
      · refine List.pairwise_append.mpr ⟨hw.spaced, List.pairwise_singleton _ _, ?_⟩
        intro a ha b hb hcat hsame hne
        obtain rfl := List.mem_singleton.mp hb
        by_contra hlt
        exact hne (hfree a ha ⟨hcat, not_le.mp hlt⟩ hsame)
      · intro a ha
        rcases List.mem_append.mp ha with hold | hnew
        · exact hw.past a hold
        · obtain rfl := List.mem_singleton.mp hnew
          exact le_rfl

/-- One arrival, at its own time. -/
theorem step (l : Arrival) (hw : Kept config h.text initial l.mono w) :
    Kept config h.text initial l.mono (w.step config h l) := by
  cases l with
  | webhook d =>
      show Kept config h.text initial d.now.mono ((h.receive d).callbacks.foldl _ w)
      rcases h.receive_callbacks d with hnone | ⟨alert, halert, hone⟩
      · rw [hnone]
        exact hw
      · rw [hone]
        exact hw.push (h.alertOf_key halert)
  | other t =>
      have htracks := hw.tracks.step t.val
      have href : refStep config (texts h.text w.applied) t.val = texts h.text w.applied := by
        unfold refStep
        split
        · rename_i category alert hop
          exact absurd hop (t.property category alert)
        · rfl
      rw [href] at htracks
      exact ⟨htracks, hw.spaced, hw.past⟩

theorem run {coord : Coordinator} (hstart : Started config coord) {ls : List Arrival}
    (hclock : ls.Pairwise fun l m => l.mono ≤ m.mono) (hto : ∀ l ∈ ls, l.mono ≤ now) :
    Kept config h.text (fun c => (coord.states c).alertCount) now
      (Lib.run (Inbox.step config h) ⟨coord, []⟩ ls) :=
  @run_preserves_timed _ _ _ (Inbox.step config h) _ Arrival.mono
    (fun now w => Kept config h.text (fun c => (coord.states c).alertCount) now w)
    (fun hw hle => hw.advance hle) (fun _ l hw => hw.step l) ls ⟨coord, []⟩
    (fun now => start hstart h.text now) hclock now hto

/-- At most one applied push of a text is recent. -/
theorem unique {d : Delivery} (hw : Kept config h.text initial d.now.mono w) {a b : AppliedPush}
    (ha : a ∈ w.applied) (hb : b ∈ w.applied) (hra : Recent d a) (hrb : Recent d b)
    (hsame : keyText h.text a.key = keyText h.text b.key) (hne : keyText h.text b.key ≠ "") :
    a = b := by
  have hpair : w.applied.Pairwise fun a b => Recent d a → Recent d b →
      keyText h.text a.key = keyText h.text b.key → keyText h.text b.key ≠ "" → a = b := by
    refine hw.spaced.imp_of_mem fun {a b} _ hb hspaced hra hrb hsame hne => ?_
    have hapart := hspaced (hra.category.trans hrb.category.symm) hsame hne
    have hpast := hw.past b hb
    have hlt := hra.window
    exact absurd hlt (by linarith)
  have hflip : w.applied.Pairwise fun b a => Recent d a → Recent d b →
      keyText h.text a.key = keyText h.text b.key → keyText h.text b.key ≠ "" → a = b := by
    refine hpair.imp ?_
    intro b a hba hra hrb hsame hne
    rw [← hsame] at hne
    exact (hba hrb hra hsame.symm hne).symm
  exact hpair.forall_of_forall_of_flip (fun _ _ _ _ _ _ => rfl) hflip ha hb hra hrb hsame hne

end Kept

/-! ## Suppression -/

/-- An authorised object payload for an enabled category, past the severity gate: only the
deduplication can hold it back. -/
structure Eligible (config : UniFiClientConfig) (h : Handler) (d : Delivery) : Prop where
  authorised : ∃ headerAuthorized, h.Authorised d.request headerAuthorized
  object : ∃ payload, decodeBody h.loads d.raw = .payload (.obj payload)
  enabled : config.enabled d.category = true
  passes : ∀ alert,
    (h.forCategory d.category).alertOf d.now.wall (.obj (h.payloadOf d)) = .ok alert →
    severityGate config d.category.name alert.severity = true

/-- The delivery leaves the coordinator as it was. -/
def Suppressed (config : UniFiClientConfig) (h : Handler) (w : Inbox) (d : Delivery) : Prop :=
  (w.webhook config h d).coord = w.coord

/-- The delivery is suppressed exactly by a recent push of the same non-empty key. -/
def MergesEqualKeys (config : UniFiClientConfig) (h : Handler) (w : Inbox) (d : Delivery) : Prop :=
  w.Suppressed config h d ↔ ∃ a ∈ w.applied, Recent d a ∧ SameKey a.key (h.rawKey d)

/-- No recent push has a key that collides with the delivered one. -/
def NoCollision (h : Handler) (w : Inbox) (d : Delivery) : Prop :=
  ∀ a ∈ w.applied, Recent d a → ¬Collide h.text a.key (h.rawKey d)

theorem Eligible.callbacks {config : UniFiClientConfig} {h : Handler} {d : Delivery}
    (hd : Eligible config h d) :
    ∃ alert, (h.receive d).callbacks = [(d.category.name, alert)] ∧
      alert.key = keyText h.text (h.rawKey d) ∧
      severityGate config d.category.name alert.severity = true := by
  obtain ⟨headerAuthorized, hauth⟩ := hd.authorised
  obtain ⟨payload, hobj⟩ := hd.object
  have hpayload : h.payloadOf d = payload := by rw [Handler.payloadOf, hobj]
  obtain ⟨alert, halert⟩ :=
    (@Handler.alertOf_ok_iff (h.forCategory d.category) d.now.wall (.obj payload)).mpr
      ⟨payload, rfl⟩
  have hcallbacks : (h.receive d).callbacks = [(d.category.name, alert)] := by
    have hauth' : (h.forCategory d.category).Authorised d.request headerAuthorized := hauth
    have hobj' : decodeBody (h.forCategory d.category).loads d.raw = .payload (.obj payload) := hobj
    rw [Handler.receive, Handler.handleWebhook_authorised hauth', hobj', Handler.deliver]
    simp only [halert]
    split <;> rfl
  rw [← hpayload] at halert
  exact ⟨alert, hcallbacks, h.alertOf_key halert, hd.passes alert halert⟩

/-- An eligible delivery is suppressed by the recent pushes that share its text. -/
theorem Kept.suppressed_iff {config : UniFiClientConfig} {h : Handler} {initial : Category → Int}
    {w : Inbox} {d : Delivery} (hw : Kept config h.text initial d.now.mono w)
    (hd : Eligible config h d) :
    w.Suppressed config h d ↔ ∃ a ∈ w.applied, Recent d a ∧
      keyText h.text a.key = keyText h.text (h.rawKey d) ∧ keyText h.text (h.rawKey d) ≠ "" := by
  obtain ⟨alert, hone, hkey, hgate⟩ := hd.callbacks
  have hturn : (w.webhook config h d).coord =
      (Coordinator.pushAlert config w.coord d.now.mono d.category.name alert).coord := by
    rw [webhook, hone]
    rfl
  have hiff := @refAccepts_texts_iff config h w.applied d alert hkey
  rw [Suppressed, hturn]
  cases haccepts : refAccepts config (texts h.text w.applied) d.now.mono d.category.name alert with
  | false =>
      have hdup := hw.tracks.duplicate (Category.ofName?_eq_some.mpr rfl) hd.enabled hgate haccepts
      refine iff_of_true (by rw [Coordinator.pushAlert, hdup]) ?_
      rw [haccepts] at hiff
      by_contra hnone
      refine Bool.false_ne_true (hiff.mpr ⟨hd.enabled, hgate, fun a ha hrecent hsame => ?_⟩)
      by_contra hne
      exact hnone ⟨a, ha, hrecent, hsame, hne⟩
  | true =>
      obtain ⟨c, hv⟩ := hw.tracks.accepts_iff.mp haccepts
      obtain ⟨-, -, hfree⟩ := hiff.mp haccepts
      refine iff_of_false (fun hsame => ?_) fun ⟨a, ha, hrecent, hsame, hne⟩ =>
        hne (hfree a ha hrecent hsame)
      -- an applied alert raises the count of its category
      have hcount := congrArg (fun st : CategoryState => st.alertCount)
        (Coordinator.pushAlert_applied hv).state
      rw [hsame] at hcount
      simp [Coordinator.acceptPush, CategoryState.applyAlert] at hcount

theorem Kept.merges_iff {config : UniFiClientConfig} {h : Handler} {initial : Category → Int}
    {w : Inbox} {d : Delivery} (hw : Kept config h.text initial d.now.mono w)
    (hstr : ∀ v, h.text.strOther v ≠ "") (hd : Eligible config h d) :
    w.MergesEqualKeys config h d ↔ w.NoCollision h d := by
  rw [MergesEqualKeys, hw.suppressed_iff hd]
  constructor
  · intro hmerges a ha hrecent hcollide
    obtain ⟨b, hb, hrb, hsame⟩ := hmerges.mp ⟨a, ha, hrecent, hcollide.sameText, hcollide.nonempty⟩
    -- the push that suppresses is the only recent one of this text
    have htext : keyText h.text a.key = keyText h.text b.key := by
      rw [hcollide.sameText, hsame.eq]
    obtain rfl := hw.unique ha hb hrecent hrb htext
      (by rw [← htext, hcollide.sameText]; exact hcollide.nonempty)
    exact hcollide.differ hsame
  · intro hfree
    constructor
    · rintro ⟨a, ha, hrecent, htext, hne⟩
      refine ⟨a, ha, hrecent, ?_⟩
      by_contra hdiffer
      exact hfree a ha hrecent ⟨htext, hne, hdiffer⟩
    · rintro ⟨a, ha, hrecent, hsame⟩
      exact ⟨a, ha, hrecent, by rw [hsame.eq], keyText_ne_empty hstr hsame.keyed⟩

end Inbox

/-! ## Every delivery of every run -/

/-- After any arrivals on a coordinator that has seen no push, an eligible delivery
is suppressed exactly by a recent push of the same non-empty key, if and only if no
recent push collides with it. -/
theorem push_merges_equal_keys_iff (config : UniFiClientConfig) (h : Handler)
    (hstr : ∀ v, h.text.strOther v ≠ "") (coord₀ : Coordinator) (hstart : Started config coord₀)
    (pre : List Arrival) (d : Delivery)
    (hclock : (pre ++ [Arrival.webhook d]).Pairwise fun l m => l.mono ≤ m.mono)
    (hd : Inbox.Eligible config h d) :
    let w := run (Inbox.step config h) ⟨coord₀, []⟩ pre
    w.MergesEqualKeys config h d ↔ w.NoCollision h d := by
  obtain ⟨hpre, -, hbefore⟩ := List.pairwise_append.mp hclock
  have hkept := Inbox.Kept.run (h := h) hstart hpre fun l hl => hbefore l hl _ List.mem_cons_self
  exact hkept.merges_iff hstr hd

/-- An interpreter for payloads that hold strings and null. -/
def listText : Text := { Text.counting fun _ => none with strOther := fun _ => "[1]" }

theorem listText_strOther {v : Json} : listText.strOther v ≠ "" := by
  show "[1]" ≠ ""
  decide

def nullKeyBody : List UInt8 := [123, 34, 107, 101, 121, 34, 58, 110, 117, 108, 108, 125]

def stringKeyBody : List UInt8 := [123, 34, 107, 101, 121, 34, 58, 34, 97, 34, 125]

/-- The bodies `{"key":null}` and `{"key":"a"}`. -/
def decodeKey (raw : List UInt8) : Decoded :=
  if raw = nullKeyBody then .value (.obj [("key", .null)])
  else if raw = stringKeyBody then .value (.obj [("key", .str "a")])
  else .malformed

def keyHandler : Handler := { powerHandler with text := listText, loads := decodeKey }

def keyDelivery (raw : List UInt8) (mono : ℚ) : Delivery where
  now := ⟨0, mono⟩
  category := .power
  request := { authorization := "Bearer s3cret" }
  raw

theorem keyDelivery_eligible {raw : List UInt8} {k : Json} (mono : ℚ)
    (hraw : decodeBody decodeKey raw = .payload (.obj [("key", k)])) :
    Inbox.Eligible {} keyHandler (keyDelivery raw mono) where
  authorised := ⟨true, powerHandler_authorised⟩
  object := ⟨_, hraw⟩
  enabled := rfl
  passes := fun alert halert => by
    have hpayload : keyHandler.payloadOf (keyDelivery raw mono) = [("key", k)] := by
      have hbody : decodeBody keyHandler.loads (keyDelivery raw mono).raw = _ := hraw
      rw [Handler.payloadOf, hbody]
    rw [hpayload] at halert
    obtain rfl := Except.ok.inj halert
    show severityGate {} "power" "" = true
    decide +kernel

/-- A string key delivered again a second later is suppressed, and should be. -/
theorem push_merges_equal_keys_string :
    (run (Inbox.step {} keyHandler) ⟨.fresh {}, []⟩
      [.webhook (keyDelivery stringKeyBody 0)]).MergesEqualKeys {} keyHandler
        (keyDelivery stringKeyBody 1) := by
  have hclock : ([Arrival.webhook (keyDelivery stringKeyBody 0)] ++
      [Arrival.webhook (keyDelivery stringKeyBody 1)]).Pairwise fun l m => l.mono ≤ m.mono := by
    simp [Arrival.mono, keyDelivery]
  refine (push_merges_equal_keys_iff {} keyHandler (fun _ => listText_strOther) (.fresh {})
    (started_fresh {}) _ _ hclock (keyDelivery_eligible 1 rfl)).mpr ?_
  intro a ha _ hcollide
  have happlied : a ∈ [(⟨.power, some (.str "a"), 0⟩ : AppliedPush)] := ha
  obtain rfl := List.mem_singleton.mp happlied
  exact (collide_str_iff.mp hcollide).2.2 rfl

/-- Two payloads whose key is null are merged: both keys print as "None". -/
theorem push_merges_equal_keys_null :
    ¬(run (Inbox.step {} keyHandler) ⟨.fresh {}, []⟩
      [.webhook (keyDelivery nullKeyBody 0)]).MergesEqualKeys {} keyHandler
        (keyDelivery nullKeyBody 1) := by
  have hkept := @Inbox.Kept.run {} keyHandler 1 (.fresh {}) (started_fresh {})
    [.webhook (keyDelivery nullKeyBody 0)] (List.pairwise_singleton _ _)
    (by simp [Arrival.mono, keyDelivery])
  have hrecent : Inbox.Recent (keyDelivery nullKeyBody 1) ⟨.power, some .null, 0⟩ :=
    ⟨rfl, by norm_num [keyDelivery, webhookDedupWindowSeconds]⟩
  intro hmerges
  have hfree := (hkept.merges_iff (fun _ => listText_strOther)
    (keyDelivery_eligible 1 rfl)).mp hmerges
  exact hfree _ (List.mem_singleton_self _) hrecent (collide_self_iff.mpr ⟨rfl, by decide⟩)

end UnifiAlerts

import Saga.Demo.Orders
import Saga.Proofs.Json.Canonical
import Saga.Proofs.Json.Compact
import Saga.Proofs.Snapshot.Codec

/-!
# Envelopes as text

The payload of an envelope is canonical, and the reader of envelopes makes the payload that it reads
canonical. So an envelope comes back from its text, also if the fields of the objects in its payload
were written in another order (`Envelope.ofText_compact`), unless it is nested too deeply
(`Envelope.ofText_compact_of_deep`). A typed message comes back from the text of its envelope if its
reader takes the canonical form of what was written (`Envelope.ComesBack.of_encode`). All messages
of the demonstration do so (`Demo.envelopes_come_back`).
-/

namespace Saga

namespace Envelope

/-- The envelope that a text holds. -/
def ofText (text : String) : Except Json.Fault Envelope :=
  match Json.parse? text with
  | some v => ofJson v
  | none => .error .malformed

/-- A kind is read back from its label. -/
lemma ofLabel_label (kind : MessageKind) : MessageKind.ofLabel kind.label = .ok kind := by
  cases kind <;> rfl

/-- A written envelope is read if its payload is. -/
lemma ofJson_toJson (e : Envelope) :
    ofJson e.toJson = (Json.asValue 1 e.payload).map fun payload => { e with payload } := by
  show (do
    let kind ← MessageKind.ofLabel e.kind.label
    let messageType ← Json.asText (.str e.messageType)
    let payload ← Json.asValue 1 e.payload
    pure (⟨kind, messageType, payload⟩ : Envelope)) = _
  rw [ofLabel_label]
  cases Json.asValue 1 e.payload <;> rfl

/-- An envelope is read back from its text with whatever the reader makes of the payload. -/
lemma ofText_compact_eq {e : Envelope} (hexact : Json.Exact e.payload) :
    ofText (Json.compact e.toJson) =
      (Json.asValue 1 e.payload).map fun payload => { e with payload } := by
  have htext : Json.Exact e.toJson := ⟨trivial, trivial, hexact, trivial⟩
  rw [ofText, Json.parse?_compact htext]
  exact ofJson_toJson e

/-- An envelope comes back from its text, in whatever order the fields of its payload were
written. -/
lemma ofText_compact {e : Envelope} {written : Json} (hascending : Json.Ascending e.payload)
    (hexact : Json.Exact e.payload) (hdepth : Json.depthOf e.payload < Json.nestingLimit)
    (hwritten : Json.Reordered e.payload written) :
    ofText (Json.compact (toJson { e with payload := written })) = .ok e := by
  have hexact' := hwritten.exact hexact
  have hdepth' := Nat.lt_of_le_of_lt hwritten.depthOf_le hdepth
  have hvalue : Json.asValue 1 written = .ok e.payload := by
    rw [Json.asValue, if_neg (by omega), if_pos hexact'.isDefinite, hwritten.canonical hascending]
  rw [ofText_compact_eq hexact', hvalue]
  rfl

/-- An envelope whose payload is nested too deeply does not. -/
lemma ofText_compact_of_deep {e : Envelope} (hexact : Json.Exact e.payload)
    (hdepth : Json.nestingLimit ≤ Json.depthOf e.payload) :
    ofText (Json.compact e.toJson) = .error .depth := by
  rw [ofText_compact_eq hexact, Json.asValue, if_pos (by omega)]
  rfl

/-! ## Typed messages -/

variable {α : Type} [Payload α]

/-- Whether a message can be sent, and comes back from the text of its envelope. -/
def Travels (send : α → Except EngineError Envelope) (message : α) : Prop :=
  ∃ e, send message = .ok e ∧ ofText (Json.compact e.toJson) = .ok e ∧ e.decode α = .ok message

/-- Whether a message comes back as a command and as a notification. -/
structure ComesBack (message : α) : Prop where
  command : Travels command message
  notification : Travels notification message

/-- A message comes back if its reader takes the canonical form of what is written for it. -/
lemma ComesBack.of_encode {message : α} {p : Json} (hencode : Payload.encode message = .ok p)
    (hexact : Json.Exact p) (hdepth : Json.depthOf p < Json.nestingLimit)
    (hdecode : Payload.decode p.canonical = .ok message) : ComesBack message := by
  have hkind : ∀ kind, Travels (encode kind) message := by
    intro kind
    let e : Envelope := ⟨kind, Payload.typeName α, p.canonical⟩
    refine ⟨e, ?send, ?text, ?decode⟩
    case send => rw [encode, hencode]
    case text =>
      exact ofText_compact (e := e) (Json.ascending_canonical p) hexact.canonical
        (Nat.lt_of_le_of_lt (Json.depthOf_canonical_le p) hdepth) (.refl _)
    case decode => simp only [Envelope.decode, e, hdecode]
  exact ⟨hkind .command, hkind .notification⟩

end Envelope

namespace Demo
open Envelope

section Layouts

variable {α : Type} [Payload α] {message : α} {orderId tracking : String}

/-- A message that says no more than which order it is about comes back. -/
lemma comesBack_of_orderFields (hencode : Payload.encode message = .ok (orderFields orderId))
    (hdecode : Payload.decode (orderFields orderId) = .ok message) : ComesBack message :=
  .of_encode hencode ⟨trivial, trivial⟩ (Nat.le_of_ble_eq_true rfl) hdecode

/-- A message about a shipped order comes back. -/
lemma comesBack_of_shippedFields
    (hencode : Payload.encode message = .ok (shippedFields orderId tracking))
    (hdecode : Payload.decode (shippedFields orderId tracking) = .ok message) :
    ComesBack message := by
  have hkeys : "order_id" < "tracking" := by decide
  have horder : Json.Ascending (shippedFields orderId tracking) :=
    ⟨List.pairwise_pair.2 hkeys, trivial, trivial, trivial⟩
  refine .of_encode hencode ⟨trivial, trivial, trivial⟩ (Nat.le_of_ble_eq_true rfl) ?_
  rw [horder.canonical_eq]
  exact hdecode

end Layouts

/-- The fields of a placed order in the order of their keys. -/
def placedFields (m : OrderPlaced) : Json :=
  .obj [("amount_cents", .int m.amountCents), ("customer_id", .str m.customerId),
    ("order_id", .str m.orderId)]

/-- A placed order comes back if its price is a word. -/
lemma comesBack_orderPlaced {m : OrderPlaced} (h : m.amountCents < wordBound) : ComesBack m := by
  have hkeys : (["amount_cents", "customer_id", "order_id"]).Pairwise (· < ·) := by decide
  have horder : Json.Ascending (placedFields m) :=
    ⟨List.pairwise_map.1 hkeys, trivial, trivial, trivial, trivial⟩
  let written : List (String × Json) := [("order_id", .str m.orderId),
    ("customer_id", .str m.customerId), ("amount_cents", .int m.amountCents)]
  have hwritten : Json.Reordered (placedFields m) (.obj written) := by
    refine @Json.Reordered.obj _ written.reverse _ ?_ (List.reverse_perm written).symm
    exact .cons _ (.refl _) (.cons _ (.refl _) (.cons _ (.refl _) .nil))
  have hexact : Json.Exact (.obj written) := ⟨trivial, trivial, Json.isWord_natCast h, trivial⟩
  refine .of_encode rfl hexact (Nat.le_of_ble_eq_true rfl) ?_
  rw [hwritten.canonical horder]
  show (do
    let amountCents ← Json.asNat wordBound (.int m.amountCents)
    pure (⟨m.orderId, m.customerId, amountCents⟩ : OrderPlaced)) = _
  rw [Json.asNat_natCast h]
  rfl

/-- Envelopes come back from their texts. Take any envelope whose payload is a value as a reader
makes it: all its numbers are integers of 64 bits, all its texts are known, the keys of its objects
ascend and so are different, and it is nested less deeply than the reader goes, given that the
envelope is an object itself. Then its text holds it, and so does every text with the fields of
these objects in other orders. All messages of the demonstration can be sent, both ways, and are
read from the envelope that its text holds. -/
theorem envelopes_come_back :
    (∀ e : Envelope, Json.Exact e.payload → Json.Ascending e.payload →
      Json.depthOf e.payload < Json.nestingLimit →
        ofText (Json.compact e.toJson) = .ok e ∧
          ∀ written, Json.Reordered e.payload written →
            ofText (Json.compact (toJson { e with payload := written })) = .ok e) ∧
      (∀ m : OrderPlaced, m.amountCents < wordBound → ComesBack m) ∧
      (∀ m : StockReserved, ComesBack m) ∧ (∀ m : PaymentCaptured, ComesBack m) ∧
      (∀ m : OrderShipped, ComesBack m) ∧ (∀ m : OrderCancelled, ComesBack m) ∧
      (∀ m : ReserveStock, ComesBack m) ∧ (∀ m : ReleaseStock, ComesBack m) ∧
      (∀ m : CapturePayment, ComesBack m) ∧ (∀ m : ShipOrder, ComesBack m) ∧
      (∀ m : OrderConfirmed, ComesBack m) ∧ (∀ m : OrderCompleted, ComesBack m) ∧
      ∀ m : OrderVoided, ComesBack m := by
  refine ⟨fun e hexact hascending hdepth => ⟨?_, fun written => ?_⟩, fun m => comesBack_orderPlaced,
    ?_, ?_, fun m => comesBack_of_shippedFields rfl rfl, ?_, ?_, ?_, ?_, ?_, ?_,
    fun m => comesBack_of_shippedFields rfl rfl, ?_⟩
  · exact ofText_compact hascending hexact hdepth (.refl _)
  · exact ofText_compact hascending hexact hdepth
  all_goals exact fun m => comesBack_of_orderFields rfl rfl

namespace Returning

/-- A list with the least and the greatest number that a text can have. -/
def items : Json :=
  .arr [.null, .bool true, .int (-9223372036854775808), .int 18446744073709551615, .arr [], .obj []]

/-- A payload with two fields, whose keys and texts have to be escaped. -/
def payload : Json :=
  .obj [("", items), ("\"\\\n☃", .obj [("\t😀", .str "\x01/\x7f")])]

/-- The same payload with its fields the other way round. -/
def turned : Json :=
  .obj [("\"\\\n☃", .obj [("\t😀", .str "\x01/\x7f")]), ("", items)]

/-- An envelope with that payload. -/
def envelope : Envelope := ⟨.notification, "a \"type\"", payload⟩

/-- An order that was placed for the greatest price that there is. -/
def order : OrderPlaced := ⟨"", "\\", wordBound - 1⟩

/-- The payload is as a reader makes it. -/
lemma exact_payload : Json.Exact payload := by
  have hleast : Json.IsWord (-9223372036854775808) := ⟨by decide, by decide⟩
  have hgreatest : Json.IsWord 18446744073709551615 := ⟨by decide, by decide⟩
  exact ⟨⟨trivial, trivial, hleast, hgreatest, trivial, trivial, trivial⟩, ⟨trivial, trivial⟩,
    trivial⟩

/-- The payload has its keys in order. -/
lemma ascending_payload : Json.Ascending payload := by
  have hkeys : "" < "\"\\\n☃" := by decide
  refine ⟨List.pairwise_pair.2 hkeys, ?_, ⟨List.pairwise_singleton _ _, trivial, trivial⟩, trivial⟩
  exact ⟨trivial, trivial, trivial, trivial, trivial, ⟨.nil, trivial⟩, trivial⟩

/-- The turned payload has the same fields in another order. -/
lemma reordered_payload : Json.Reordered payload turned :=
  .obj (.cons _ (.refl _) (.cons _ (.refl _) .nil)) (.swap _ _ _)

/-- A payload of several layers comes back from the text of its envelope, also with its fields in
another order, and so does a typed order. -/
theorem texts_are_read :
    (Json.Exact payload ∧ Json.Ascending payload ∧ Json.depthOf payload < Json.nestingLimit) ∧
      order.amountCents < wordBound ∧
      ofText (Json.compact envelope.toJson) = .ok envelope ∧
      ofText (Json.compact (toJson { envelope with payload := turned })) = .ok envelope ∧
      ComesBack order := by
  have hdepth : Json.depthOf payload < Json.nestingLimit := Nat.le_of_ble_eq_true rfl
  have hprice : order.amountCents < wordBound := by decide
  obtain ⟨henvelope, horder, -⟩ := envelopes_come_back
  obtain ⟨htext, hturned⟩ := henvelope envelope exact_payload ascending_payload hdepth
  exact ⟨⟨exact_payload, ascending_payload, hdepth⟩, hprice, htext,
    hturned turned reordered_payload, horder order hprice⟩

end Returning

end Demo

end Saga

/-
What a subscriber is owed.

This is the purpose of a publish–subscribe exchange, told from the side of one
participant.  It sees messages go by, it joins topics, and at some point it leaves
for good.  `received` reads such a history and says which messages the participant
should be handed: those whose topic it has joined and not left, each once, in the
order they went by.  Nothing here knows how an exchange keeps its tables.
-/
import Mathlib.Data.List.Basic

namespace Lib.Broker

variable {Topic Msg : Type*}

/-- One entry of a participant's history. -/
inductive Event (Topic Msg : Type*)
  | message (m : Msg)
  | join (t : Topic)
  | leave

/-- The topics joined and not left at the end of a history that began with `ts`. -/
def topicsAfter : List Topic → List (Event Topic Msg) → List Topic
  | ts, [] => ts
  | ts, .message _ :: es => topicsAfter ts es
  | ts, .join t :: es => topicsAfter (ts ++ [t]) es
  | _, .leave :: es => topicsAfter [] es

variable [DecidableEq Topic] (topic : Msg → Topic)

/-- The messages a participant that had joined `ts` is owed for a history. -/
def received : List Topic → List (Event Topic Msg) → List Msg
  | _, [] => []
  | ts, .message m :: es => (if topic m ∈ ts then [m] else []) ++ received ts es
  | ts, .join t :: es => received (ts ++ [t]) es
  | _, .leave :: es => received [] es

theorem received_message (ts : List Topic) (m : Msg) :
    received topic ts [.message m] = if topic m ∈ ts then [m] else [] := by
  rw [received, received, List.append_nil]

omit [DecidableEq Topic] in
theorem topicsAfter_append (es fs : List (Event Topic Msg)) :
    ∀ ts, topicsAfter ts (es ++ fs) = topicsAfter (topicsAfter ts es) fs := by
  induction es with
  | nil => intro ts; rfl
  | cons e rest ih => intro ts; cases e <;> exact ih _

/-- A history is served in two parts: the second from the topics the first leaves. -/
theorem received_append (es fs : List (Event Topic Msg)) :
    ∀ ts, received topic ts (es ++ fs)
      = received topic ts es ++ received topic (topicsAfter ts es) fs := by
  induction es with
  | nil => intro ts; rfl
  | cons e rest ih =>
      intro ts
      cases e with
      | message m => simp only [List.cons_append, received, topicsAfter, ih, List.append_assoc]
      | join t => exact ih _
      | leave => exact ih _

/-- The message an event is about. -/
def Event.body : Event Topic Msg → Option Msg
  | .message m => some m
  | _ => none

/-- What is handed over is picked out of what went by: in that order, and nothing twice. -/
theorem received_sublist (es : List (Event Topic Msg)) :
    ∀ ts, (received topic ts es).Sublist (es.filterMap Event.body) := by
  induction es with
  | nil => intro ts; exact List.Sublist.slnil
  | cons e rest ih =>
      intro ts
      cases e with
      | message m =>
          have hbody : (Event.message m :: rest : List (Event Topic Msg)).filterMap Event.body
              = m :: rest.filterMap Event.body := rfl
          rw [received, hbody]
          by_cases hts : topic m ∈ ts
          · rw [if_pos hts]
            exact (ih ts).cons_cons m
          · rw [if_neg hts]
            exact (ih ts).cons m
      | join t => exact ih _
      | leave => exact ih _

/-- Nothing is handed over whose topic was never joined. -/
theorem joined_of_mem_received {m : Msg} (es : List (Event Topic Msg)) :
    ∀ ts, m ∈ received topic ts es → topic m ∈ ts ∨ Event.join (topic m) ∈ es := by
  induction es with
  | nil => intro ts h; cases h
  | cons e rest ih =>
      intro ts h
      cases e with
      | message m' =>
          rw [received, List.mem_append] at h
          rcases h with h | h
          · split at h
            · rename_i hts
              rw [List.mem_singleton.mp h]
              exact .inl hts
            · cases h
          · exact (ih ts h).imp_right (List.mem_cons_of_mem _)
      | join t =>
          rcases ih _ h with hts | hrest
          · rcases List.mem_append.mp hts with hts | hts
            · exact .inl hts
            · rw [List.mem_singleton.mp hts]
              exact .inr List.mem_cons_self
          · exact .inr (List.mem_cons_of_mem _ hrest)
      | leave =>
          rcases ih _ h with hts | hrest
          · cases hts
          · exact .inr (List.mem_cons_of_mem _ hrest)

end Lib.Broker

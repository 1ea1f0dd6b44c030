import RemoteCall.Proofs.Json.Level
import RemoteCall.Proofs.Json.Projection

/-!
# Where envelopes close

An envelope, as it is read and as it is written, is a text in brackets, and the
bracket that closes it is settled by the text alone.  So what breaks off inside of
an envelope that was written is read as no envelope, and neither is such an envelope
with anything but blanks behind it.
-/

namespace RemoteCall.Json

open Ascii Envelope

/-! ## Envelopes that are read -/

theorem eq_ok_of_orStop {α : Type} {read : Except Fault α} {a : α} (done : orStop read = .ok a) :
    read = .ok a := by
  cases read with
  | error => cases done
  | ok b => exact congrArg Except.ok (Except.ok.inj done)

section Members

variable {α : Type} {layout : Layout α} {head : Read α} {other : Read Value} {bound : Nat}
  (headKeeps : KeepsLevel head) (otherKeeps : KeepsLevel other)

include headKeeps otherKeeps

theorem readMember_keepsLevel (draft : Draft α) (member : Member) :
    KeepsLevel (readMember head other draft member) := by
  intro s filled rest read
  cases member with
  | head =>
      simp only [readMember, bind, Except.bind] at read
      split at read
      next => cases read
      next done =>
          obtain ⟨-, rfl⟩ := Prod.mk.inj (Except.ok.inj read)
          exact headKeeps s _ _ done
  | body | id =>
      simp only [readMember, bind, Except.bind] at read
      split at read
      next => cases read
      next done =>
          obtain ⟨-, rfl⟩ := Prod.mk.inj (Except.ok.inj read)
          exact otherKeeps s _ _ done

theorem moves_of_readNamed {draft filled : Draft α} {name : String} {s rest : Bytes}
    (read : readNamed layout head other bound draft name s = .ok (filled, rest)) :
    Moves 0 0 s rest := by
  have behindColon {β : Type} {next : Bytes → Except Fault β} {found : β}
      (read : orStop (afterColon s >>= next) = .ok found) :
      ∃ content, Moves 0 0 s content ∧ next content = .ok found := by
    have both := eq_ok_of_orStop read
    cases colonRead : afterColon s with
    | error =>
        rw [colonRead] at both
        cases both
    | ok content =>
        rw [colonRead] at both
        exact ⟨content, moves_of_afterColon colonRead 0, both⟩
  unfold readNamed at read
  split at read
  next =>
      simp only [bind, Except.bind] at read
      split at read
      next => cases read
      next done =>
          obtain ⟨-, rfl⟩ := Prod.mk.inj (Except.ok.inj read)
          obtain ⟨content, toContent, passed⟩ := behindColon done
          exact toContent.trans (moves_of_pass passed)
  next member _ =>
      split at read
      next => cases read
      next =>
          obtain ⟨content, toContent, memberRead⟩ := behindColon read
          exact toContent.trans
            (readMember_keepsLevel headKeeps otherKeeps draft member _ _ _ memberRead)

theorem moves_of_namedMembers {steps : Nat} {draft filled : Draft α} {s rest : Bytes}
    (read : namedMembers layout head other bound steps draft s = .ok (filled, rest)) :
    Moves 0 0 s rest := by
  induction steps generalizing draft s with
  | zero => cases read
  | succ steps ih =>
      have isKey : ∃ tail name middle, s = quote :: tail ∧ text tail = .ok (name, middle) := by
        unfold namedMembers at read
        split at read
        next tail =>
            cases named : text tail with
            | error =>
                simp only [named, orStop, bind, Except.bind] at read
                cases read
            | ok found => exact ⟨tail, found.1, found.2, rfl, named⟩
        next => cases read
      obtain ⟨tail, name, middle, rfl, named⟩ := isKey
      rw [namedMembers_quote steps draft named] at read
      cases contentRead : readNamed layout head other bound draft name middle with
      | error =>
          rw [contentRead] at read
          cases read
      | ok found =>
          rcases found with ⟨later, after⟩
          rw [contentRead] at read
          change nextNamed layout head other bound steps (later, after) = _ at read
          have member := (moves_of_text named 0).trans
            (moves_of_readNamed headKeeps otherKeeps contentRead)
          have blank := member.trans (moves_blanks 0 after)
          unfold nextNamed at read
          split at read
          next => cases read
          next shape =>
              obtain ⟨-, rfl⟩ := Prod.mk.inj (Except.ok.inj read)
              simp only [shape] at blank
              exact blank
          next following shape =>
              simp only [shape] at blank
              have separated := (blank.trans (.plain (by decide) 0 following)).trans
                (moves_blanks 0 following)
              split at read
              next => cases read
              next => cases read
              next => exact separated.trans (ih read)
          next => cases read

theorem moves_of_namedEnvelope {s rest : Bytes} {found : Envelope α}
    (read : namedEnvelope layout head other bound s = .ok (found, rest)) : Moves 0 0 s rest := by
  rw [namedEnvelope_eq] at read
  cases started : startNamed layout head other bound s with
  | error =>
      rw [started] at read
      cases read
  | ok pair =>
      rcases pair with ⟨filled, after⟩
      rw [started] at read
      change finished _ (filled, after) = _ at read
      have same : after = rest := by
        unfold finished at read
        split at read
        next => exact (Prod.mk.inj (Except.ok.inj read)).2
        next => cases read
      subst same
      unfold startNamed at started
      have blank := moves_blanks 0 s
      split at started
      next => cases started
      next shape =>
          obtain ⟨-, rfl⟩ := Prod.mk.inj (Except.ok.inj started)
          exact shape ▸ blank
      next => exact blank.trans (moves_of_namedMembers headKeeps otherKeeps started)

theorem moves_of_orderedMembers {members : List Member} {first : Bool} {draft filled : Draft α}
    {s rest : Bytes} (read : orderedMembers head other members first draft s = .ok (filled, rest)) :
    Moves 0 0 s rest := by
  induction members generalizing first draft s with
  | nil =>
      obtain ⟨-, rfl⟩ := Prod.mk.inj (Except.ok.inj read)
      exact .refl 0 s
  | cons member members ih =>
      have blank := moves_blanks 0 s
      rw [orderedMembers] at read
      split at read
      next => cases read
      next shape =>
          obtain ⟨-, rfl⟩ := Prod.mk.inj (Except.ok.inj read)
          exact shape ▸ blank
      next byte after _ shape =>
          rw [shape] at blank
          have goesOn {begun : Bytes} (toMember : Moves 0 0 (byte :: after) begun)
              (read : (orStop (readMember head other draft member begun) >>= fun found =>
                orderedMembers head other members false found.1 found.2) = .ok (filled, rest)) :
              Moves 0 0 s rest := by
            cases memberRead : orStop (readMember head other draft member begun) with
            | error =>
                rw [memberRead] at read
                cases read
            | ok found =>
                rw [memberRead] at read
                have moves := readMember_keepsLevel headKeeps otherKeeps draft member _ _ _
                  (eq_ok_of_orStop memberRead)
                exact (blank.trans (toMember.trans moves)).trans (ih read)
          split at read
          next => exact goesOn (.refl 0 _) read
          split at read
          next isComma =>
              subst isComma
              have behind := (Moves.plain (by decide : Plain comma) 0 after).trans
                (moves_blanks 0 after)
              split at read
              next => cases read
              next => cases read
              next => exact goesOn behind read
          next => cases read

theorem moves_of_orderedEnvelope {s rest : Bytes} {found : Envelope α}
    (read : orderedEnvelope layout head other s = .ok (found, rest)) : Moves 0 0 s rest := by
  simp only [orderedEnvelope, bind, Except.bind] at read
  split at read
  next => cases read
  next filled membersRead =>
      have same : filled.2 = rest := by
        split at read
        next => exact (Prod.mk.inj (Except.ok.inj read)).2
        next => cases read
      subst same
      exact moves_of_orderedMembers headKeeps otherKeeps membersRead

omit headKeeps otherKeeps in
theorem exists_of_closed {close : Bytes → Except Fault Bytes}
    {read : Except Stop (Envelope α × Bytes)} {found : Envelope α} {rest : Bytes}
    (done : closed close read = .ok (found, rest)) :
    ∃ s, read = .ok (found, s) ∧ close s = .ok rest := by
  cases read with
  | error stop =>
      cases stop with
      | fault fault => cases done
      | mismatch m s =>
          simp only [closed] at done
          split at done <;> cases done
  | ok pair =>
      rcases pair with ⟨made, s⟩
      simp only [closed, bind, Except.bind] at done
      split at done
      next => cases done
      next left closes =>
          obtain ⟨rfl, rfl⟩ := Prod.mk.inj (Except.ok.inj done)
          exact ⟨s, rfl, closes⟩

/-- An envelope that is read is a text in brackets, behind blanks. -/
theorem bracketed_of_envelope {s rest : Bytes} {found : Envelope α}
    (read : envelope layout head other bound s = .ok (found, rest)) :
    Bracketed (blanks s) rest := by
  unfold envelope at read
  split at read
  next => cases read
  next inside shape =>
      obtain ⟨left, membersRead, closes⟩ := exists_of_closed read
      have moves := (moves_of_orderedEnvelope headKeeps otherKeeps membersRead).trans
        (moves_blanks 0 left)
      rw [shape]
      unfold afterList at closes
      split at closes
      next => cases closes
      next ending =>
          obtain rfl := Except.ok.inj closes
          exact ⟨openBracket, inside, closeBracket, rfl, by decide, by decide, ending ▸ moves⟩
      next => split at closes <;> cases closes
      next => cases closes
  next inside shape =>
      obtain ⟨left, membersRead, closes⟩ := exists_of_closed read
      have moves := (moves_of_namedEnvelope headKeeps otherKeeps membersRead).trans
        (moves_blanks 0 left)
      rw [shape]
      unfold afterObject at closes
      split at closes
      next => cases closes
      next ending =>
          obtain rfl := Except.ok.inj closes
          exact ⟨openBrace, inside, closeBrace, rfl, by decide, by decide, ending ▸ moves⟩
      next => cases closes
      next => cases closes
  next =>
      simp only [bind, Except.bind] at read
      split at read
      next => cases read
      next => cases read

end Members

theorem onlyText_keepsLevel (bound : Nat) : KeepsLevel (onlyText bound) := by
  intro s chars rest read
  unfold onlyText at read
  split at read
  next inside shape =>
      have blank := moves_blanks 0 s
      rw [shape] at blank
      exact blank.trans (moves_of_text read 0)
  next => cases read
  next => cases read
  next =>
      simp only [bind, Except.bind] at read
      split at read
      next => cases read
      next => cases read

section Whole

variable {α : Type} {layout : Layout α} {head : (bound : Nat) → Read α} {s rest : Bytes}
  (headKeeps : ∀ bound, KeepsLevel (head bound))

include headKeeps

/-- A text that is read as an envelope has nothing but blanks around its brackets. -/
theorem exists_of_whole_envelope {found : Envelope α}
    (read : whole (fun bound => envelope layout (head bound) (memberValue bound) bound) s
      = .ok found) : ∃ rest, Bracketed (blanks s) rest ∧ blanks rest = [] := by
  unfold whole at read
  split at read
  next => cases read
  next left envelopeRead =>
      have bracketed := bracketed_of_envelope (headKeeps s.length)
        (value_keepsLevel s.length (deepest - 1)) envelopeRead
      split at read
      next ended => exact ⟨left, bracketed, ended⟩
      next => cases read

/-- No text that breaks off inside of its brackets is read as an envelope. -/
theorem eq_nil_of_front_envelope {begun missing : Bytes} (written : Bracketed (begun ++ missing) [])
    {found : Envelope α}
    (read : whole (fun bound => envelope layout (head bound) (memberValue bound) bound) begun
      = .ok found) : missing = [] := by
  obtain ⟨rest, bracketed, -⟩ := exists_of_whole_envelope headKeeps read
  rw [written.blanks_front] at bracketed
  have same := written.unique (bracketed.append missing)
  exact (List.append_eq_nil_iff.1 same.symm).2

/-- No text with anything but blanks behind its brackets is read as an envelope. -/
theorem blanks_eq_nil_of_envelope {more : Bytes} (written : Bracketed s []) {found : Envelope α}
    (read : whole (fun bound => envelope layout (head bound) (memberValue bound) bound) (s ++ more)
      = .ok found) : blanks more = [] := by
  obtain ⟨rest, bracketed, ended⟩ := exists_of_whole_envelope headKeeps read
  have extended : Bracketed (s ++ more) more := written.append more
  have trimmed : blanks (s ++ more) = s ++ more := by
    rw [← List.append_nil (s ++ more)] at extended
    exact extended.blanks_front
  rw [trimmed] at bracketed
  rw [← bracketed.unique extended]
  exact ended

end Whole

theorem eq_nil_of_readCall {begun missing : Bytes} (written : Bracketed (begun ++ missing) [])
    {call : Call} (read : readCall begun = .ok call) : missing = [] :=
  eq_nil_of_front_envelope onlyText_keepsLevel written read

theorem eq_nil_of_readAnswer {begun missing : Bytes} (written : Bracketed (begun ++ missing) [])
    {answer : Answer} (read : readAnswer begun = .ok answer) : missing = [] :=
  eq_nil_of_front_envelope (fun bound => value_keepsLevel bound _) written read

theorem blanks_eq_nil_of_readCall {octets more : Bytes} (written : Bracketed octets [])
    {call : Call} (read : readCall (octets ++ more) = .ok call) : blanks more = [] :=
  blanks_eq_nil_of_envelope onlyText_keepsLevel written read

end RemoteCall.Json

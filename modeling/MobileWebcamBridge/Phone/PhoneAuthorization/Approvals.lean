import MobileWebcamBridge.Lib.Trace
import MobileWebcamBridge.Phone.PhoneAuthorization.Proofs

/-!
# Threads inside a call

`Program` is what a thread can still have to run, with what it knows: a thread inside `approve`
holds the client of a proof its session received, and reaches the last section only after its own
durable write.
-/

set_option autoImplicit false

namespace MobileWebcamBridge
namespace PhoneAuthorization

open Wire ClientAuthorization Trace

variable {P : Platform} {a : PhoneAuthorization P} {c : Clock} {thread sid : ℕ} {client : Client}
variable {tr tr' es : List Event} {stored : ClientRepository P} {th : Threads P}
variable {ok : List Event → Threads P → Label → Prop} {t : Task} {ts : List Task}

/-- The thread's first section ran for a live prompt, and proposes the client of its proof. -/
def Approving (P : Platform) (tr : List Event) (thread sid : ℕ) (client : Client) : Prop :=
  .approving thread sid client.clientId ∈ tr ∧ ∃ p, .proof sid p ∈ tr ∧ client = candidateOf P p

/-- The thread's durable write was saved after its first section. -/
def Saved (tr : List Event) (thread sid : ℕ) (client : Client) : Prop :=
  ∃ now clients, Precedes tr (.approving thread sid client.clientId)
    (.saved (.approve client) now clients)

/-- The write of an approval. -/
def Write.isApproval : Write → Bool
  | .approve _ => true
  | _ => false

/-- What a thread may have left to do after what it has done. -/
inductive Program (P : Platform) (tr : List Event) (thread : ℕ) : List Task → Prop
  | done : Program P tr thread []
  | enter (call : Call) : Program P tr thread [.enter call]
  | stored {w : Write} : w.isApproval = false → Program P tr thread [.stored w, .recheck]
  | write {w : Write} {now : ℤ} :
      w.isApproval = false → Program P tr thread [.write w now, .recheck]
  | recheck : Program P tr thread [.recheck]
  | storageFailed : Program P tr thread [.storageFailed]
  | storeApproval {sid : ℕ} {client : Client} : Approving P tr thread sid client →
      Program P tr thread [.stored (.approve client), .completeApproval sid client]
  | writeApproval {sid : ℕ} {client : Client} {now : ℤ} : Approving P tr thread sid client →
      Program P tr thread [.write (.approve client) now, .completeApproval sid client]
  | completeApproval {sid : ℕ} {client : Client} : Approving P tr thread sid client →
      Saved tr thread sid client → Program P tr thread [.completeApproval sid client]

theorem Approving.append (h : Approving P tr thread sid client) (es : List Event) :
    Approving P (tr ++ es) thread sid client := by
  obtain ⟨h, p, hp, hc⟩ := h
  exact ⟨List.mem_append_left _ h, p, List.mem_append_left _ hp, hc⟩

theorem Saved.append (h : Saved tr thread sid client) (es : List Event) :
    Saved (tr ++ es) thread sid client := by
  obtain ⟨now, clients, h⟩ := h
  exact ⟨now, clients, h.append_right es⟩

theorem Program.append (h : Program P tr thread ts) (es : List Event) :
    Program P (tr ++ es) thread ts := by
  cases h with
  | done => exact .done
  | enter call => exact .enter call
  | stored hw => exact .stored hw
  | write hw => exact .write hw
  | recheck => exact .recheck
  | storageFailed => exact .storageFailed
  | storeApproval h => exact .storeApproval (h.append es)
  | writeApproval h => exact .writeApproval (h.append es)
  | completeApproval h hs => exact .completeApproval (h.append es) (hs.append es)

theorem program_tasks (call : Call) : Program P tr thread call.tasks := by
  unfold Call.tasks
  split
  · exact .stored rfl
  · exact .enter _

/-- The first section of `approve` proposes the client of the proof its session received. -/
theorem approving_beginApproval (h : Sessions tr a) (c : Clock) (thread sid : ℕ) {client : Client}
    (hb : (a.beginApproval c thread sid).2.2 = some client) :
    Approving P (tr ++ (a.beginApproval c thread sid).2.1) thread sid client := by
  unfold beginApproval at hb ⊢
  rcases requireLiveApproval_cases a c sid with ⟨b, es, hr, -⟩ | ⟨s, hr, hp, -⟩ <;> rw [hr] at hb ⊢
  · cases hb
  simp only at hb ⊢
  obtain ⟨p, hproofs, hcand, -⟩ := (h.session sid s hp.session).proved (.inl hp.phase)
  rw [hcand] at hb ⊢
  obtain rfl : candidateOf P p = client := by simpa using hb
  refine ⟨by simp, p, ?_, rfl⟩
  apply List.mem_append_left
  exact mem_proofsOf.mp (by rw [hproofs]; exact List.mem_singleton_self p)

/-- What is left of a thread's program after it ran its first task. -/
theorem Program.run (hs : Sessions tr a) (h : Program P tr thread (t :: ts)) (c : Clock)
    (written : Bool) :
    Program P (tr ++ (a.runTask c written thread ts t).2.1) thread
      (a.runTask c written thread ts t).2.2 := by
  cases h with
  | enter call =>
    cases call with
    | approve sid =>
      have hb (client : Client) :
          (a.beginApproval c thread sid).2.2 = some client → Approving P _ thread sid client :=
        approving_beginApproval hs c thread sid
      simp only [runTask, PhoneAuthorization.enter]
      generalize a.beginApproval c thread sid = q at hb ⊢
      obtain ⟨b, es, _ | client⟩ := q
      · exact .done
      · exact .storeApproval (hb client rfl)
    | revoke id =>
      simp only [runTask, PhoneAuthorization.enter]
      generalize a.beginRevocation c id = q
      obtain ⟨b, es, _ | _⟩ := q
      · exact .done
      · exact .stored rfl
    | _ => exact .done
  | stored hw =>
    simp only [runTask]
    split
    · exact .done
    · exact .write hw
  | write hw =>
    simp only [runTask]
    split
    · exact .recheck
    · exact .recheck
    · exact .storageFailed
  | recheck => exact .done
  | storageFailed => exact .done
  | storeApproval h =>
    simp only [runTask]
    split
    · exact .done
    · exact .writeApproval (h.append _)
  | @writeApproval sid client now h =>
    simp only [runTask]
    split
    · next r hq =>
      exact .completeApproval (h.append _)
        ⟨now, r.clients, precedes_of_mem h.1 (List.mem_singleton_self _)⟩
    · next r hq =>
      -- an approval is never found to be in the list already
      have hnot : (Write.run a.repository now written (.approve client)).2 ≠ .unchanged := by
        simp only [Write.run, ClientRepository.approve, ClientRepository.publish]
        split
        · split
          · split <;> simp
          · simp
        · simp
      exact absurd (congrArg Prod.snd hq) hnot
    · exact .storageFailed
  | completeApproval => exact .done

/-- Every thread runs a program. -/
def Programs (tr : List Event) (th : Threads P) : Prop :=
  ∀ thread ts, th.programs[thread]? = some ts → Program P tr thread ts

theorem programs_ok (h : (system stored).Under ok tr th) : Programs tr th := by
  refine h.invariant ?_ ?_
  · rintro th rfl thread ts hts
    simp at hts
  · intro tr th l th' es hr _ hi hs thread ts hts
    cases moved_of_step hs with
    | call call =>
      simp only [List.getElem?_append] at hts
      split at hts
      · exact (hi thread ts hts).append _
      · simp only [List.getElem?_singleton] at hts
        split at hts
        · rw [Option.some.injEq] at hts
          exact hts ▸ program_tasks call
        · cases hts
    | @task i c written t ts' hj =>
      simp only [List.getElem?_set] at hts
      split at hts
      · next hi' =>
        subst hi'
        split at hts
        · rw [Option.some.injEq] at hts
          exact hts ▸ (hi i _ hj).run (sessions_ok hr) c written
        · cases hts
      · exact (hi thread ts hts).append _

end PhoneAuthorization
end MobileWebcamBridge

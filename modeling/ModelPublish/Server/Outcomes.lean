import ModelPublish.Server.Listener

/-!
# What a reply can say

Whatever MySQL and the files answer, a handler that returns has either refused, with an error code, an
error status and nothing to carry home, or succeeded with the field that was asked for.
-/

namespace ModelPublish.Server
open Machine

/-- The field that a method answers with. -/
inductive Payload where
  | model
  | ad
  | info
  | modelId
  | adId
  | subscriptionId
  deriving DecidableEq

namespace Reply

def Carries (r : Reply) : Payload → Prop
  | .model => r.model.isSome
  | .ad => r.ad.isSome
  | .info => r.info.isSome ∧ r.size.isSome
  | .modelId => r.modelId.isSome
  | .adId => r.adId.isSome
  | .subscriptionId => r.subscriptionId.isSome

/-- Nothing that a client asked for. -/
structure Bare (r : Reply) : Prop where
  model : r.model = none
  ad : r.ad = none
  info : r.info = none
  modelId : r.modelId = none
  adId : r.adId = none
  subscriptionId : r.subscriptionId = none

theorem Bare.not_carries {r : Reply} (h : r.Bare) (payload : Payload) : ¬ r.Carries payload := by
  obtain ⟨model, ad, info, modelId, adId, subscriptionId⟩ := h
  cases payload <;> simp [Carries, *]

structure Refused (r : Reply) : Prop where
  code : r.errorCode ≠ .ok ∧ r.errorCode ≠ .unknownClient
  status : r.httpResult ≠ .ok
  bare : r.Bare

structure Succeeded (payload : Payload) (r : Reply) : Prop where
  code : r.errorCode = .ok
  status : r.httpResult = .ok
  carries : r.Carries payload

def Settled (payload : Payload) (r : Reply) : Prop := r.Refused ∨ r.Succeeded payload

theorem refused_initial : Refused initial := ⟨by decide, by decide, ⟨rfl, rfl, rfl, rfl, rfl, rfl⟩⟩

theorem Refused.outcome {r : Reply} (h : r.Refused) (message : String) {code : ErrorCode} {status : Status}
    (notOk : code ≠ .ok ∧ code ≠ .unknownClient) (failed : status ≠ .ok) :
    (r.outcome message code status).Refused :=
  ⟨notOk, failed, ⟨h.bare.model, h.bare.ad, h.bare.info, h.bare.modelId, h.bare.adId, h.bare.subscriptionId⟩⟩

end Reply

open Reply

section Stages
variable {host : Host} {env : Env} {params : Params} {reply : Reply}

theorem fetchSubscription_ends {column : Subscription → Option Int} (h : reply.Refused) :
    (fetchSubscription host params column reply).Ends fun x => x.2.Refused := by
  refine (Prog.ends_true _).bind fun strPname _ => (Prog.ends_true _).bind fun szModelId _ => ?_
  intro res
  show Reply.Refused _
  split
  · exact h.outcome _ (by decide) (by decide)
  · exact h

theorem fetchModel_ends {iModelId : Int} (h : reply.Refused) :
    (fetchModel iModelId reply).Ends fun x => x.2.Refused := by
  unfold fetchModel
  split
  · intro res
    cases res with
    | none => exact h.outcome _ (by decide) (by decide)
    | some row => exact h
  · exact h

theorem fetchUser_ends (h : reply.Refused) : (fetchUser host params reply).Ends fun x => x.2.Refused := by
  refine (Prog.ends_true _).bind fun strPname _ => (Prog.ends_true _).bind fun szUser _ => ?_
  refine (Prog.ends_true _).bind fun strPname _ => (Prog.ends_true _).bind fun szPass _ => ?_
  intro res
  show Reply.Refused _
  split
  · exact h.outcome _ (by decide) (by decide)
  · exact h

theorem fetchOwner_ends {iUserId : Int} (h : reply.Refused) :
    (fetchOwner host params iUserId reply).Ends fun x => x.2.Refused := by
  unfold fetchOwner
  split
  · refine (Prog.ends_true _).bind fun strPname _ => (Prog.ends_true _).bind fun szUser _ => ?_
    intro res
    show Reply.Refused _
    split
    · exact h.outcome _ (by decide) (by decide)
    · exact h
  · exact h

theorem modelExists_ends {iOwnerId iModelId : Int} (h : reply.Refused) :
    (modelExists iOwnerId iModelId reply).Ends fun x => x.2.Refused := by
  unfold modelExists
  split
  · intro res
    cases res with
    | none => exact h.outcome _ (by decide) (by decide)
    | some row => exact h
  · exact h

theorem adExists_ends {iOwnerId iAdId : Int} (h : reply.Refused) :
    (adExists iOwnerId iAdId reply).Ends fun x => x.2.Refused := by
  unfold adExists
  split
  · intro res
    cases res with
    | none => exact h.outcome _ (by decide) (by decide)
    | some row => exact h
  · exact h

theorem insertRow_ends {u : Update} (h : reply.Refused) : (insertRow u reply).Ends fun x => x.2.Refused := by
  intro iInsert
  have refused : (if iInsert = 0 then
      reply.outcome "Subscription id not found!" .subscriptionNotFound .notFound else reply).Refused := by
    split
    · exact h.outcome _ (by decide) (by decide)
    · exact h
  intro res
  cases res with
  | none => exact refused.outcome _ (by decide) (by decide)
  | some id => exact refused

theorem uploadFile_ends {iUserId : Int} (h : reply.Refused) :
    (uploadFile host env params iUserId reply).Ends fun x => x.2.Refused := by
  unfold uploadFile
  split
  · exact (Prog.ends_true _).bind fun x _ => insertRow_ends h
  · exact h

theorem insertLast_ends {u : Update} {put : Int → Reply → Reply} {payload : Payload} (h : reply.Refused)
    (puts : ∀ id, (put id reply.success).Succeeded payload) :
    (insertLast u put reply).Ends (Settled payload) := by
  apply (Prog.ends_true _).bind
  intro iInsert _
  split
  · exact .inl (h.outcome _ (by decide) (by decide))
  · intro res
    cases res with
    | none => exact .inl (h.outcome _ (by decide) (by decide))
    | some id =>
      show Settled payload _
      split
      · exact .inr (puts id)
      · exact .inl h

theorem sendFile_ends {path : CString} {message : String} {put : WString → Reply → Reply} {payload : Payload}
    (h : reply.Refused) (puts : ∀ s, (put s reply.success).Succeeded payload) :
    (sendFile host path message put env reply).Ends (Settled payload) := by
  apply Prog.Ends.ask_bind
  intro saved
  cases saved with
  | none =>
    apply Prog.Ends.ask_bind
    intro found
    cases found with
    | none => exact .inl (h.outcome _ (by decide) (by decide))
    | some pBuf =>
      refine (Prog.ends_true _).bind fun iSize _ => (Prog.ends_true _).bind fun _ _ => ?_
      exact (Prog.ends_true _).bind fun _ _ => .inr (puts _)
  | some content => exact (Prog.ends_true _).bind fun _ _ => .inr (puts _)

theorem sendInfo_ends {path : CString} (h : reply.Refused) :
    (sendInfo host path env reply).Ends (Settled .info) := by
  apply Prog.Ends.ask_bind
  intro saved
  cases saved with
  | none =>
    apply Prog.Ends.ask_bind
    intro found
    cases found with
    | none => exact .inl (h.outcome _ (by decide) (by decide))
    | some content =>
      refine (Prog.ends_true _).bind fun iSize _ => (Prog.ends_true _).bind fun _ _ => ?_
      exact .inr ⟨rfl, rfl, rfl, rfl⟩
  | some content => exact (Prog.ends_true _).bind fun _ _ => .inr ⟨rfl, rfl, rfl, rfl⟩

theorem fetchFile_ends {send : CString → Env → Reply → Program Reply} {payload : Payload} {iFileId : Int}
    (sends : ∀ path, (send path env reply).Ends (Settled payload)) (h : reply.Refused) :
    (fetchFile host send iFileId env reply).Ends (Settled payload) := by
  unfold fetchFile
  split
  · apply Prog.Ends.ask_bind
    intro row
    cases row with
    | none => exact .inl (h.outcome _ (by decide) (by decide))
    | some row => exact sends _
  · exact .inl h

theorem fetchAd_ends {iAdId : Int} (h : reply.Refused) :
    (fetchAd host iAdId env reply).Ends (Settled .ad) := by
  unfold fetchAd
  split
  · apply Prog.Ends.ask_bind
    intro row
    cases row with
    | none => exact .inl (h.outcome _ (by decide) (by decide))
    | some row =>
      obtain ⟨code, status, model, ad, info, modelId, adId, subscriptionId⟩ := h
      refine sendFile_ends ⟨code, status, model, ad, info, modelId, adId, subscriptionId⟩ ?_
      exact fun s => ⟨rfl, rfl, rfl⟩
  · exact .inl h

theorem insertModel_ends {iFileId : Int} (h : reply.Refused) :
    (insertModel host params iFileId reply).Ends (Settled .modelId) := by
  unfold insertModel
  split
  · refine (Prog.ends_true _).bind fun _ _ => (Prog.ends_true _).bind fun _ _ => ?_
    refine (Prog.ends_true _).bind fun _ _ => (Prog.ends_true _).bind fun _ _ => ?_
    exact insertLast_ends h fun id => ⟨rfl, rfl, rfl⟩
  · exact .inl h

theorem insertAd_ends {szUrl : CString} {iUserId : Int} (h : reply.Refused) :
    (insertAd host env params szUrl iUserId reply).Ends (Settled .adId) := by
  unfold insertAd
  split
  · refine (Prog.ends_true _).bind fun x _ => (insertRow_ends h).bind ?_
    rintro ⟨iAdId, reply⟩ refused
    show Settled .adId _
    dsimp only
    split
    · exact .inr ⟨rfl, rfl, rfl⟩
    · exact .inl refused
  · exact .inl h

theorem insertSubscription_ends {iOwnerId iModelId iAdId : Int} {bothExist : Bool} (h : reply.Refused) :
    (insertSubscription host env iOwnerId iModelId iAdId bothExist reply).Ends (Settled .subscriptionId) := by
  unfold insertSubscription
  split
  · exact (Prog.ends_true _).bind fun szHash _ => insertLast_ends h fun id => ⟨rfl, rfl, rfl⟩
  · exact .inl h

end Stages

/-! ### The handlers -/

section Handlers
variable (host : Host) (env : Env) (params : Params)

theorem onGetModel_ends : (onGetModel host env params .initial).Ends (Settled .model) := by
  refine (Prog.ends_true _).bind fun _ _ => (fetchSubscription_ends refused_initial).bind ?_
  rintro ⟨iModelId, reply⟩ refused
  apply (fetchModel_ends refused).bind
  rintro ⟨iFileId, reply⟩ refused
  refine fetchFile_ends (fun path => sendFile_ends refused ?_) refused
  exact fun s => ⟨rfl, rfl, rfl⟩

theorem onGetInfo_ends : (onGetInfo host env params .initial).Ends (Settled .info) := by
  refine (Prog.ends_true _).bind fun _ _ => (fetchSubscription_ends refused_initial).bind ?_
  rintro ⟨iModelId, reply⟩ refused
  apply (fetchModel_ends refused).bind
  rintro ⟨iFileId, reply⟩ refused
  exact fetchFile_ends (fun path => sendInfo_ends refused) refused

theorem onGetAd_ends : (onGetAd host env params .initial).Ends (Settled .ad) := by
  refine (Prog.ends_true _).bind fun _ _ => (fetchSubscription_ends refused_initial).bind ?_
  rintro ⟨iAdId, reply⟩ refused
  exact fetchAd_ends refused

theorem onUploadModel_ends : (onUploadModel host env params .initial).Ends (Settled .modelId) := by
  refine (Prog.ends_true _).bind fun _ _ => (fetchUser_ends refused_initial).bind ?_
  rintro ⟨iUserId, reply⟩ refused
  apply (uploadFile_ends refused).bind
  rintro ⟨iFileId, reply⟩ refused
  exact insertModel_ends refused

theorem onUploadAd_ends : (onUploadAd host env params .initial).Ends (Settled .adId) := by
  refine (Prog.ends_true _).bind fun _ _ => (Prog.ends_true _).bind fun _ _ => ?_
  refine (Prog.ends_true _).bind fun _ _ => (fetchUser_ends refused_initial).bind ?_
  rintro ⟨iUserId, reply⟩ refused
  exact insertAd_ends refused

theorem onCreateSubscription_ends : (onCreateSubscription host env params .initial).Ends (Settled .subscriptionId) := by
  refine (Prog.ends_true _).bind fun _ _ => (fetchUser_ends refused_initial).bind ?_
  rintro ⟨iUserId, reply⟩ refused
  apply (fetchOwner_ends refused).bind
  rintro ⟨iOwnerId, reply⟩ refused
  refine (Prog.ends_true _).bind fun iModelId _ => (modelExists_ends refused).bind ?_
  rintro ⟨bModelExists, reply⟩ refused
  refine (Prog.ends_true _).bind fun iAdId _ => (adExists_ends refused).bind ?_
  rintro ⟨bAdExists, reply⟩ refused
  exact insertSubscription_ends refused

end Handlers

/-- The field that a request asks for. -/
def asked (method : Method) (strMethod : WString) : Option Payload :=
  match method with
  | .get =>
    if strMethod = wide "get" then some .model
    else if strMethod = wide "getad" then some .ad
    else if strMethod = wide "getinfo" then some .info
    else none
  | .post =>
    if strMethod = wide "upload_model" then some .modelId
    else if strMethod = wide "upload_ad" then some .adId
    else if strMethod = wide "create_subs" then some .subscriptionId
    else none

end ModelPublish.Server

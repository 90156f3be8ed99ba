import ReviewDesk.Form.Basic

/-!
# Forms about users
-/

namespace ReviewDesk.Form

def profileSlots : List Slot :=
  [may "full_name" (.text 0 (some 100)), may "avatar_url" aText, may "bio" aText,
   may "location" aText, may "company" aText, may "website" aText]

def userBase : List Slot :=
  [need "email" .email, need "username" (.text 3 (some 50))] ++ profileSlots

def userCreate : Form := ⟨"UserCreate", userBase ++ [need "password" (.text 8 none)]⟩

def userUpdate : Form :=
  ⟨"UserUpdate", [may "email" .email, may "username" (.text 3 (some 50))] ++ profileSlots ++
    [may "preferences" .dict, may "notification_settings" .dict]⟩

def userSlots : List Slot :=
  userBase ++
    [need "id" anInt, need "is_active" .flag, need "is_verified" .flag, need "is_superuser" .flag,
     may "github_id" aText, may "gitlab_id" aText, may "bitbucket_id" aText,
     need "preferences" .dict, need "notification_settings" .dict, need "created_at" .time,
     may "updated_at" .time, may "last_login" .time]

def userRecord : Form := ⟨"UserInDB", userSlots⟩

def user : Form := ⟨"User", userSlots⟩

def token : Form :=
  ⟨"Token", [need "access_token" aText, need "refresh_token" aText,
             with_ "token_type" aText (.text "bearer")]⟩

def tokenData : Form := ⟨"TokenData", [may "user_id" anInt]⟩

def loginRequest : Form :=
  ⟨"LoginRequest", [need "email_or_username" aText, need "password" (.text 1 none)]⟩

def refreshTokenRequest : Form := ⟨"RefreshTokenRequest", [need "refresh_token" aText]⟩

def passwordChangeRequest : Form :=
  ⟨"PasswordChangeRequest",
    [need "current_password" (.text 1 none), need "new_password" (.text 8 none),
     need "confirm_password" (.text 8 none)]⟩

def passwordsMatch (f : Filled) : Outcome Filled :=
  if f.text "new_password" = f.text "confirm_password" then .ok f
  else .error (.invalid "New password and confirm password do not match")

def userForms : List Form :=
  [⟨"UserBase", userBase⟩, userCreate, userUpdate, userRecord, user, token, tokenData, loginRequest,
   refreshTokenRequest, passwordChangeRequest]

end ReviewDesk.Form

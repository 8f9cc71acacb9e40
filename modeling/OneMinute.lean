import OneMinute.Lib.Locks
import OneMinute.Lib.Serving
import OneMinute.Lib.Paging
import OneMinute.Lib.Selection
import OneMinute.Discovery.Bookkeeping
import OneMinute.Discovery.Queue
import OneMinute.Discovery.Privacy
import OneMinute.Blocking
import OneMinute.Parting
import OneMinute.Connecting
import OneMinute.Sockets
import OneMinute.Matchmaking
import OneMinute.Choice
import OneMinute.Sweeping
import OneMinute.Attempts
import OneMinute.Communication.Calls
import OneMinute.Communication.Leases
import OneMinute.Communication.Tables
import OneMinute.Communication.Requests
import OneMinute.Communication.Moves
import OneMinute.Communication.Sending
import OneMinute.Communication.Messages
import OneMinute.Communication.History
import OneMinute.Communication.Receipts
import OneMinute.Communication.ReceiptEvents
import OneMinute.Communication.Settings
import OneMinute.Communication.Moments
import OneMinute.Communication.Quota
import OneMinute.Communication.Listings
import OneMinute.Communication.Invites
import OneMinute.Auth.Login
import OneMinute.Lib.Threads
import OneMinute.Auth.Subjects
import OneMinute.Discovery.Frames
import OneMinute.Web.Conversation
import OneMinute.Web.Requests
import OneMinute.Signaling.Lab
import OneMinute.Signaling.Forwarding
import OneMinute.Social.Profiles
import OneMinute.Lib.Json
import OneMinute.Lib.JsonString
import OneMinute.Lib.JsonText
import OneMinute.Discovery.Preferences
import OneMinute.Discovery.Texts
import OneMinute.Ice.Credentials
import OneMinute.Pairs
import OneMinute.Recovery
import OneMinute.Turn.Config
import OneMinute.Communication.Actions
import OneMinute.Communication.Signals
import OneMinute.Communication.Acceptance
import OneMinute.Communication.Hangup
import OneMinute.Communication.Beats
import OneMinute.Lib.FixedWindow
import OneMinute.Limits
import OneMinute.Auth.Authentication
import OneMinute.Web.LabSession
import OneMinute.Web.Negotiation
import OneMinute.Signaling.Agreement
import OneMinute.Web.Captures
import OneMinute.Consent

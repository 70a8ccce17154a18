/-!
# Functions of Windows libraries

The names of functions with the number of arguments that they take, two where none is written. A number before a name says how
many parts of the name before come first, one where none is written.
-/

namespace SymExec.WindowsFunctions

def parts (name : List Char) : List (List Char) :=
  name.foldr (fun c ps => match ps with
    | p :: ps => if p.head?.any Char.isUpper then [c] :: p :: ps else (c :: p) :: ps
    | [] => [[c]]) []

def number (digits : List Char) : Nat := (String.ofList digits).toNat?.getD 0

def words (text : String) : List String := (text.splitToList Char.isWhitespace).filter (· ≠ "")

/-- The signs that stand for what many names have. -/
def signs : List (Char × List Char) :=
  (words "#Information $Function %Security &File +Name :Process ;Console =Thread ?Transacted @String ^Handle |Event
 ~Descriptor <Info >Object !Time ,Service -Callback /System [Value ]Policy (Key )Encrypted 'tion `ate").map fun w =>
    (w.toList.headD ' ', w.toList.tail)

def readWord : List (String × Nat) × List Char → String → List (String × Nat) × List Char
  | (found, last), word =>
    let (common, rest) := word.toList.span Char.isDigit
    let count := (rest.reverse.takeWhile Char.isDigit).reverse
    let own := rest.take (rest.length - count.length)
    let name := ((parts last).take (if common = [] then 1 else number common)).flatten ++
      (own.filter fun c => c != '*' && c != '.').flatMap fun c => (signs.lookup c).getD [c]
    let ends := if own.contains '*' then [['W'], ['A']] else [[]]
    (ends.map (fun e => (String.ofList (name ++ e), if count = [] then 2 else number count)) ++ found, name)

def spelt (text : String) : List (String × Nat) := ((words text).foldl readWord ([], [])).1.reverse

def kernel : List (String × Nat) := spelt "
 0AcquireSRWLockExclusive1 5Shared1 0Activ`ActCtx 0AddAtom*1 ;Alias*3 IntegrityLabelToBoundary~ LocalAltern`Computer+*
 RefActCtx1 SIDToBoundary~ SecureMemoryCache-1 VectoredContinue^r 2Excep'^r 0AdjustCalendarD`3 0Alloc;0
 0Alloc`UserPhysicalPages3 4Numa4 0Applica'RecoveryFinished1 2InProgress1 0Are&ApisANSI0 0Assign:ToJob> 0Attach;1
 0BackupRead7 Seek6 Write7 0BaseCheckAppcompatCache4 4Ex6 2RunApp13 CleanupAppcompatCacheSupport1 DllReadWriteIni&8
 DumpAppcompatCache0 FlushAppcompatCache0 Format>Attributes4 2!Out Gener`AppCompatData6 Get+d>Directory1
 InitAppcompatCacheSupport0 IsAppcompatInfrastructureDisabled0 QueryModuleData7 SetLastNTError1 =InitThunk1
 Upd`AppcompatCache3 VerifyUnicode@1 0Basep8Bit@ToDynamicUnicode@ 0BasepAlloc`Activa'ContextActiva'Block4
 Ansi@ToDynamicUnicode@ CheckAppCompat4 2Badapp15 2WinSaferRestric's3 FreeActiva'ContextActiva'Block1 2AppCompatData3
 MapModule^ 0Beep 0BeginUpd`Resource* 0BindIoComple'-3 0BuildCommDCB* 5And!outs*3 0Call+dPipe*7 0-MayRunLong1
 0CancelDeviceWakeupRequest1 Io1 2Ex SynchronousIo1 =poolIo1 !rQueue!r Waitable!r1 0Change!rQueue!r4 0CheckEleva'5
 2Enabled1 ForReadOnlyResource +LegalDOS8Dot3*5 RemoteDebuggerPresent 0ClearCommBreak1 2Error3 0Close;^1 ^1
 Priv`+space ProfileUserMapping0 =pool1 2CleanupGroup1 4Members3 2Io1 2!r1 2Wait1 2Work1 0CmdBatNotifica'1
 0CommConfigDialog*3 0CompareCalendarD`s3 &! @*6 2Ex9 2Ordinal5 0Connect+dPipe 0;MenuControl3 0ContinueDebug|3
 0ConvertCalD`!To/! DefaultLocale1 FiberTo=0 NLSDayOfWeekToWin32DayOfWeek1 /!ToCalD`!3 =ToFiber1 4Ex 0CopyContext3 &*3
 2Ex*6 2?*7 LZ& 0Cre`ActCtx*1 Boundary~* ;ScreenBuffer5 Directory* 2Ex*3 2?*4 |*4 2Ex*4 Fiber3 2Ex5 &*7 2Mapping*6
 3Numa*7 2?*10 HardLink*3 3?*4 IoComple'Port4 Job>* 2Set3 Mailslot*4 MemoryResourceNotifica'1 Mutex*3 2Ex*4 +dPipe*8
 Pipe4 Priv`+space*3 :*10 2AsUserW11 2Internal*12 Remote=7 3Ex8 Semaphore*4 2Ex*6 Socket^0 SymbolicLink*3 3?*4
 TapeParti'4 =6 =pool1 2CleanupGroup0 2Io4 2!r3 2Wait3 2Work3 !rQueue0 3!r7 Toolhelp32Snapshot Waitable!r*3 3Ex*4
 0CtrlRoutine1 0Deactiv`ActCtx 0DebugActive:1 3Stop1 Break0 2:1 Set:KillOnExit1 0DecodePointer1 /Pointer1
 0DefineDosDevice*3 0DelayLoadFailureHook 0DeleteAtom1 Boundary~1 CriticalSec'1 Fiber1 &*1 2?* Proc=AttributeList1
 !rQueue1 3Ex 3!r3 VolumeMountPoint*1 0DeviceIoControl8 0Disable=LibraryCalls1 2Profiling1 0Disassoci`Current=From-1
 0Disconnect+dPipe1 0DnsHostnameToComputer+*3 0DosD`!To&!3 PathToSessionPath*3 0Duplic`;^4 ^7 0Enable=Profiling5
 0EncodePointer1 /Pointer1 0EndUpd`Resource* 0EnterCriticalSec'1 0EnumCalendar<*4 3Ex*4 4Ex6 D`Formats*3 3Ex*3 4Ex4
 LanguageGroupLocales*4 ResourceLanguages*5 3Ex*7 2+s*4 3Ex*6 2Types*3 3Ex*5 /CodePages* 2FirmwareTables3 2GeoID3
 2LanguageGroups*3 2Locales* 3Ex4 !Formats*3 3Ex4 UILanguages*3 0Enumer`LocalComputer+s*4 0EraseTape3 0EscapeComm$
 0Exit:1 =1 VDM 0ExpandEnvironment@s*3 0Expunge;CommandHistory*1 0FatalAppExit* Exit1 0&!ToDosD`!3 3Local&! 3/!
 0Fill;OutputAttribute5 3Character*5 0FindActCtxSec'Guid5 4@*5 Atom*1 Close1 2ChangeNotifica'1 FirstChangeNotifica'*3
 2&* 3Ex*6 3+?W5 4W4 3?*7 2Stream?W5 3W4 2Volume* 3MountPoint*3 NLS@7 5Ex10 NextChangeNotifica'1 2&* 3+W3 2StreamW
 2Volume*3 3MountPoint*3 Resource*3 2Ex*4 @Ordinal6 VolumeClose1 2MountPointClose1 0FlsAlloc1 Free1 Get[1 Set[
 0Flush;InputBuffer1 &Buffers1 Instruc'Cache3 :WriteBuffers0 ViewOf& 0Fold@*5 0FormatMessage*7 0Free;0 Environment@s*1
 Library1 2AndExit= 2When-Returns Resource1 UserPhysicalPages3 0Gener`;Ctrl| 0GetACP0 Active:orCount1 3GroupCount0
 Applica'Recovery-5 2RestartSettings4 Atom+*3 BinaryType 2Type* CP< 4Ex*3 CalendarD`Format6 4Ex6 2DaysInMonth4
 2DifferenceInDays3 2<*6 3Ex7 2MonthsInYear3 2SupportedD`Range3 2WeekNumber4 ComPlusPackageInstallStatus0 CommConfig3
 2Mask 2ModemStatus 2Properties 2St` 2!outs CommandLine*0 Compressed&Size* 4?*3 Computer+* 3Ex*3 ;Alias*4 3Exes*
 4Length*0 2Aliases*3 3Length*1 2CP0 2CharType3 2CommandHistory*3 4Length*1 2Cursor< 3Mode3 2DisplayMode1 2Font<4
 3Size 2HardwareSt`3 2History<1 2InputExe+* 3Wait^0 2KeyboardLayout+*1 2Mode 2NlsMode 2OriginalTitle* 2OutputCP0
 2:List 2ScreenBuffer< 5Ex 2Selec'<1 2Title* 2Window0 CurrencyFormat*6 3Ex6 CurrentActCtx1 2;Font3 4Ex3 2Directory*
 2:0 3Id0 2:orNumber0 4Ex1 2=0 3Id0 D`Format*6 3Ex7 DefaultCommConfig*3 DevicePowerSt` DiskFreeSpace*5 4Ex*4
 DllDirectory* DriveType*1 Dura'Format8 3Ex8 Dynamic!Zone#1 EnabledXSt`Features0 Environment@s0 2@s*0 2Variable*3
 Era+Counted@4 ErrorMode0 ExitCode: 3= Expanded+* &Attributes*1 3Ex*3 3?*4 2BandwidthReserva'6 2#By^ 5Ex4 2MUI<4
 5Path7 2Size 3Ex 2!4 2Type1 FinalPath+By^*4 FirmwareEnvironmentVariable*4 FullPath+*4 4?*5 Geo<*5 ^Context1 2#
 LargePageMinimum0 Largest;WindowSize1 LastError0 Local!1 Locale<*4 3Ex4 LogicalDrive@s* 2Drives0 2:or# 4Ex3
 LongPath+*3 4?*4 Mailslot<5 Maximum:orCount1 3GroupCount0 Module&+*3 2^*1 3Ex*3 NLSVersion3 5Ex3 +dPipeAttribute5
 3ClientComputer+*3 4:Id 4SessionId 3^St`*7 3<5 3Server:Id 4SessionId Native/<1 NextVDMCommand1
 NumaAvailableMemoryNode 5Ex 2HighestNodeNumber1 2NodeNumberFrom^ 3:orMask 5Ex 2:orNode 4Ex 2ProximityNode 4Ex
 NumberFormat*6 3Ex6 2Of;Fonts0 4Input|s 4MouseButtons1 OEMCP0 OverlappedResult4 PhysicallyInstalled/Memory1
 PriorityClass1 Priv`ProfileInt*4 3Sec'*4 4+s*3 3@*6 3Struct*5 ProcAddress :AffinityMask3 2DEP]3 2GroupAffinity3
 2^Count 2Heap0 2Heaps 2Id1 3Of=1 2IoCounters 2PreferredUILanguages4 2PriorityBoost 2ShutdownParameters 2!s5
 2UserModeExcep']1 2Version1 2WorkingSetSize3 5Ex4 :or/Cycle!3 Product<5 ProfileInt*3 2Sec'*3 2@*5
 QueuedComple'Status5 4Ex6 ShortPath+*3 Startup<*1 Std^1 @Scripts5 2TypeA5 3Ex*5 3W4 /DEP]0 2DefaultLCID0 3LangID0
 3Locale+ 3UILanguage0 2Directory* 2&CacheSize3 2FirmwareTable4 2<1 2PowerStatus1 2PreferredUILanguages4
 2RegistryQuota 2!1 3Adjustment3 3As&!1 2!s3 2WindowsDirectory* 2Wow64Directory* TapeParameters4 2Posi'5 2Status1
 Temp&+*4 2Path* =Context 2ErrorMode0 2GroupAffinity 2IOPendingFlag 2Id1 2Ideal:orEx 2Locale0 2PreferredUILanguages4
 2Priority1 3Boost 2SelectorEntry3 2!s5 2UILanguage0 TickCount0 2Count64.0 !Format*6 3Ex6 2Zone#1 4ForYear3
 UILanguage<5 UserDefaultLCID0 3LangID0 3Locale+ 3UILanguage0 2GeoID1 2PreferredUILanguages4 VDMCurrentDirectories
 Version0 2Ex*1 Volume#*8 3By^W8 2+ForVolumeMountPoint*3 2Path+*3 3+sForVolume+*4 WindowsDirectory* WriteWatch6
 XSt`FeaturesMask 0GlobalAddAtom*1 Alloc Compact1 DeleteAtom1 FindAtom*1 Fix1 Flags1 Free1 GetAtom+*3 ^1 Lock1
 MemoryStatus1 3Ex1 ReAlloc3 Size1 UnWire1 Unfix1 Unlock1 Wire1 0Heap32First3 ListFirst 2Next Next1 0HeapAlloc3
 Compact Cre`3 Destroy1 Free3 Lock1 Query#5 ReAlloc4 Set#4 Size3 Summary3 Unlock1 Valid`3 Walk 0IdnToAscii5
 2+prepUnicode5 2Unicode5 0InitAtomTable1 OnceBeginInitialize4 2Complete3 2ExecuteOnce4 2Initialize1
 0InitializeCondi'Variable1 Context4 CriticalSec'1 3AndSpinCount 3Ex3 Proc=AttributeList4 SListHead1 2RWLock1
 0InterlockedCompareExchange3 2Exchange64.5 Decrement1 Exchange 2Add FlushSList1 Increment1 PopEntrySList1
 PushEntrySList 2ListSList 0Invalid`;DIBits 0IsBadCodePtr1 2HugeReadPtr 3WritePtr 2ReadPtr 2@Ptr* 2WritePtr
 CalendarLeapDay5 3Month4 3Year3 DBCSLeadByte1 7Ex DebuggerPresent0 NLSDefined@5 Normalized@3 :InJob3
 :orFeaturePresent1 /ResumeAutomatic0 =AFiber0 =pool!rSet1 !ZoneRedirec'Enabled0 ValidCalD`! 2CodePage1 2LanguageGroup
 2Locale 3+1 Wow64: 0K32EmptyWorkingSet1 EnumDeviceDrivers3 2Page&s* 2:Modules4 4Ex5 2:es3 GetDeviceDriverBase+*3
 4&+*3 2Mapped&+*4 2ModuleBase+*4 3&+Ex*4 3#4 2Performance< 2:Image&+*3 3Memory<3 2WsChanges3 4Ex3
 Initialize:ForWsWatch1 QueryWorkingSet3 4Ex3 0LCIDToLocale+4 2Map@*6 4Ex9 ZClose1 3&1 2Copy 2Cre`&W5 2Done0 2Init1
 2Open&*3 2Read3 2Seek3 2Start0 0LeaveCriticalSec'1 3When-Returns 0LoadAppInitDlls0 Library*1 2Ex*3 Module Resource
 @BaseExW5 3W4 0LocalAlloc Compact1 &!To&! Flags1 Free1 ^1 Lock1 ReAlloc3 Shrink Size1 Unlock1 0Locale+ToLCID
 0Loc`XSt`Feature3 0Lock&5 2Ex6 Resource1 0MapUserPhysicalPages3 4Scatter3 ViewOf&5 4Ex6 5Numa7 0Module32First 2W Next
 2W 0Move&* 2Ex*3 2?*6 2WithProgress*5 0MulDiv3 0MultiByteToWideChar6 0NeedCurrentDirectoryForExePath*1 0NlsCheck]
 |DataDescCre`4 GetCacheUpd`Count0 Upd`Locale 2/Locale WriteEtw|5 0Normalize@5 0NotifyMountMgr3 UILanguageChange5
 0Open;W4 |*3 &3 2ById6 2Mapping*3 Job>*3 Mutex*3 Priv`+space* :3 2Token3 ProfileUserMapping0 Semaphore*3 =3 2Token4
 Waitable!r*3 0OutputDebug@*1 0Peek;Input*4 +dPipe6 0PostQueuedComple'Status4 0PowerClearRequest Cre`Request1
 SetRequest 0PrepareTape3 0PrivCopy&ExW6 Move&IdentityW3 0:32First 2W Next 2W 0:IdToSessionId 0Pulse|1 0PurgeComm
 0QueryActCtxSettingsW7 3W7 DepthSList1 DosDevice*3 Full:Image+*4 Idle:orCycle! 5Ex3 #Job>5 MemoryResourceNotifica'
 PerformanceCounter1 2Frequency1 :AffinityUpd`Mode 2Cycle! =Cycle! 2Profiling =poolStack# UnbiasedInterrupt!1
 0QueueUserAPC3 2WorkItem3 0RaiseExcep'4 FailFastExcep'3 0ReOpen&4 0Read;*5 2Input*4 3Ex*5 2Output*5 3Attribute5
 3Character*5 DirectoryChangesW8 &5 2Ex5 2Scatter5 :Memory5 =ProfilingData3 0RegClose(1 Cre`(Ex*9 Delete(Ex*4 2Tree*
 2[* DisablePredefinedCacheEx0 Enum(Ex*8 2[*8 Flush(1 Get(%4 2[*7 KrnGetGlobalSt`0 2Initialize3 Load(*3 2MUI@*7
 NotifyChange([5 OpenCurrentUser 2(Ex*5 2UserClassesRoot4 Query<(*12 2[Ex*6 Restore(*3 Save(Ex*4 Set(%3 2[Ex*6
 UnLoad(* 0RegisterApplica'Recovery-4 2Restart ;IME 2OS2.1 2VDM9 WaitForInputIdle1 3Single>6 5Ex5 WowBase^rs1 2Exec1
 0ReleaseActCtx1 Mutex1 2When-Returns SRWLockExclusive1 5Shared1 Semaphore3 2When-Returns3 0RemoveDirectory*1 2?*
 LocalAltern`Computer+* SecureMemoryCache-1 VectoredContinue^r1 2Excep'^r1 0Replace&6 &*6 Parti'Unit3
 0RequestDeviceWakeup1 WakeupL`ncy1 0Reset|1 WriteWatch 0ResolveLocale+3 0RestoreLastError1 0Resume=1
 0RtlCaptureContext1 2StackBackTrace4 FillMemory3 MoveMemory3 Unwind4 ZeroMemory 0Scroll;ScreenBuffer*5 0SearchPath*6
 0SetCalendar<*4 Client!Zone#1 ComPlusPackageInstallStatus1 CommBreak1 2Config3 2Mask 2St` 2!outs Computer+*1 3Ex*
 ;ActiveScreenBuffer1 2CP1 2Ctrl^r 2Cursor 3< 3Mode3 3Posi' 2DisplayMode3 2Font 2HardwareSt`3 2History<1 2Icon1
 2InputExe+*1 2(Shortcuts4 2LocalEUDC4 2MaximumWindowSize 2MenuClose1 2Mode 2NlsMode 2NumberOfCommands* 2OS2OemFormat1
 2OutputCP1 2Palette3 2ScreenBuffer<Ex 4Size 2TextAttribute 2Title*1 2Window<3 CriticalSec'SpinCount Current;FontEx3
 2Directory*1 DefaultCommConfig*3 DllDirectory*1 Dynamic!Zone#1 EndOf&1 Environment@s*1 2Variable* ErrorMode1 |1
 2When-Returns &ApisToANSI0 4OEM0 2Attributes* 3?*3 2BandwidthReserva'6 2Comple'Notifica'Modes 2#By^4
 2IoOverlappedRange3 2Pointer4 3Ex5 2Short+* 2!4 2ValidData3 FirmwareEnvironmentVariable*4 ^Context 2Count1 2#3 #Job>4
 Last;|Active0 2Error1 LocalPrimaryComputer+* 2!1 Locale<*3 Mailslot< MessageWaitingIndicator +dPipeAttribute5 3^St`4
 PriorityClass :AffinityMask 3Upd`Mode 2DEP]1 2PreferredUILanguages3 2PriorityBoost 2ShutdownParameters
 2UserModeExcep']1 2WorkingSetSize3 5Ex4 SearchPathMode1 Std^ 3Ex3 /&CacheSize3 2PowerSt` 2!1 3Adjustment
 TapeParameters3 2Posi'6 TermsrvAppInstallMode1 =AffinityMask 2Context 2ErrorMode 2Execu'St`1 2GroupAffinity3
 2Ideal:or 4Ex3 2Locale1 2PreferredUILanguages3 2Priority 3Boost 2StackGuarantee1 2Token 2UILanguage1 =poolStack#
 2=Maximum 3Minimum 2!r4 2Wait3 !Zone#1 !rQueue!r6 UnhandledExcep'Filter1 UserGeoID1 VDMCurrentDirectories
 VolumeLabel* 2MountPoint* Waitable!r6 XSt`FeaturesMask3 0SetupComm3 0Show;Cursor 0Signal>AndWait4 0SizeofResource
 0Sleep1 Condi'VariableCS3 3SRW4 Ex 0SortClose^1 Get^3 0Start=poolIo1 0Submit=poolWork1 0Suspend=1 0SwitchToFiber1 2=0
 0/!To&! 3TzSpecificLocal!3 0Termin`Job> : = 0TermsrvAppInstallMode0 0=32First Next 0TlsAlloc0 Free1 Get[1 Set[
 0Toolhelp32Read:Memory5 0Transact+dPipe7 0TransmitCommChar 0TryAcquireSRWLockExclusive1 6Shared1 EnterCriticalSec'1
 Submit=pool-3 0TzSpecificLocal!To/!3 0UTRegister7 2UnRegister1 0UnhandledExcep'Filter1 0Unlock&5 2Ex5 0UnmapViewOf&1
 0UnregisterApplica'Recovery-0 2Restart0 ;IME0 Wait1 2Ex 0Upd`CalendarDayOfWeek1 Proc=Attribute7 Resource*6
 0VDM;Opera' 3Opera'Started1 0VerLanguage+*3 SetCondi'Mask4 0Verify;Io^1 Scripts5 Version<*4 0VirtualAlloc4 2Ex5
 3Numa6 Free3 2Ex4 Lock Protect4 2Ex5 Query3 2Ex4 Unlock 0WTSGetActive;SessionId0 0WaitComm|3 ForDebug| 2Multiple>s4
 4Ex5 2Single> 4Ex3 2=poolIoCallbacks 3!rCallbacks 3WaitCallbacks 3WorkCallbacks +dPipe* 0WakeAllCondi'Variable1
 Condi'Variable1 0WerGetFlags Register&3 2MemoryBlock 2RuntimeExcep'Module SetFlags1 Unregister&1 2MemoryBlock1
 2RuntimeExcep'Module 0WerpCleanupMessageMapping0 Initi`RemoteRecovery1 NotifyLoad@Resource4 5Ex5 2Use@Resource1
 @Lookup 0WideCharToMultiByte8 0WinExec 0Wow64DisableWow64FsRedirec'1 EnableWow64FsRedirec'1 Get=Context
 3SelectorEntry3 RevertWow64FsRedirec'1 Set=Context Suspend=1 0Write;*5 2Input*4 3VDM*4 2Output*5 3Attribute5
 3Character*5 &5 2Ex5 2Gather5 Priv`ProfileSec'*3 3@*4 3Struct*5 :Memory5 ProfileSec'* 2@*3 Tapemark4 0ZombifyActCtx1
 0_hread3 0_hwrite3 0_lclose1 0_lcreat 0_llseek3 0_lopen 0_lread3 0_lwrite3 0lstrcat 0lstrcat* 0lstrcmp 0lstrcmp*
 0lstrcmpi 0lstrcmpi* 0lstrcpy 0lstrcpy* 0lstrcpyn3 0lstrcpyn*3 0lstrlen1 0lstrlen*1"

def security : List (String × Nat) := spelt "
 0A_SHAFinal 4Init1 4Upd`3 0Abort/Shutdown*1 0AccessCheck8 2AndAuditAlarm*11 2ByType11 4AndAuditAlarm*16 4ResultList11
 6AndAuditAlarm*16 9By^*17 0AddAccessAllowedAce4 4Ex5 3>Ace7 2DeniedAce4 4Ex5 3>Ace7 Ace5 AuditAccessAce6 4Ex7 3>Ace9
 Condi'alAce8 MandatoryAce5 UsersTo)& 5Ex4 0AdjustTokenGroups6 2Privileges6 0Alloc`AndInitializeSid11 LocallyUniqueId1
 0AreAllAccessesGranted AnyAccessesGranted 0AuditComputeEffective]BySid4 5Token4 Enumer`C`gories 2PerUser]1
 2SubC`gories4 Free1 LookupC`goryGuidFromC`goryId 3IdFromC`goryGuid 3+* 2SubC`gory+* QueryGlobalSacl* 2PerUser]4 2%
 2/]3 SetGlobalSacl* 2PerUser]3 2% 2/] 0Backup|Log* 0BuildExplicitAccessWith+*5 Imperson`ExplicitAccessWith+*6
 2Trustee* %~*9 TrusteeWith+* 3>sAnd+*6 5Sid*5 3Sid* 0CancelOverlappedAccess1 0Change,Config*11 2Config2*3
 0CheckTokenMembership3 0Clear|Log* 0CloseCodeAuthzLevel1 )&Raw1 |Log1 ,^1 =WaitChainSession1 Trace
 0CommandLineFromMsi~3 0ComputeAccessTokenFromCodeAuthzLevel5 0Control,3 2Ex*4 Trace*5 0ConvertAccessTo%~*5
 SDTo@SDRootDomain*6 %~ToAccess*7 5+d*7 4@%~*5 SidTo@Sid* @SDToSDDomain*6 7RootDomain*5 2%~To%~*4 2SidToSid*
 ToAutoInheritPriv`>%6 0CopySid3 0Cre`CodeAuthzLevel5 Priv`>%6 4Ex8 4WithMultipleInheritance9 :AsUser*11 2WithLogonW11
 3TokenW9 RestrictedToken9 ,*13 TraceInstanceId WellKnownSid4 0CredBackupCredentials5 Delete*3
 EncryptAndMarshalBinaryBlob3 Enumer`*4 FindBestCredential*4 Free1 GetSessionTypes 2Target<*3 IsMarshaledCredential*1
 2Protected* MarshalCredential*3 ProfileLoaded0 2Unloaded0 Protect*6 Read*4 2ByToken^5 2DomainCredentials*4 Rename*4
 RestoreCredentials4 UnmarshalCredential*3 Unprotect*5 Write* 2DomainCredentials*3 0CredpConvertCredential4
 2OneCredentialSize 2Target<4 DecodeCredential1 EncodeCredential1 2Secret5 0CryptAcquireContext*5 ContextAddRef3
 Cre`Hash5 Decrypt6 Derive(5 DestroyHash1 2(1 Duplic`Hash4 2(4 Encrypt7 EnumProviderTypes*6 2Providers*6 Export(6
 Gen(4 2Random3 GetDefaultProvider*5 2HashParam5 2(Param5 2ProvParam5 2User(3 HashData4 2Session(3 Import(6
 ReleaseContext SetHashParam4 2(Param4 2ProvParam4 2Provider* 3Ex*4 SignHash*6 VerifySignature*6 0Decrypt&* 0DeleteAce
 ,1 0Deregister|Source1 0DestroyPriv`>%1 0Duplic`Encryp'<&5 Token3 2Ex6 0ElfBackup|Log&* ChangeNotify Clear|Log&*
 Close|Log1 Deregister|Source1 Flush|Log1 NumberOfRecords OldestRecord OpenBackup|Log*3 2|Log*3 Read|Log*7
 Register|Source*3 Report|*12 3AndSourceW15 0EnableTrace6 2Ex12 2Ex2.11 0Encrypt&*1 0)&(<3 0Encryp'Disable
 0EnumDependent,s*6 ,GroupW9 ,sStatus*8 3Ex*10 0Enumer`TraceGuids3 3Ex6 0EqualDomainSid3 PrefixSid Sid
 0|AccessControl5 2Query3 2Remove1 ActivityIdControl Enabled3 ProviderEnabled5 Register4 Unregister Write5
 2EndScenario5 2Ex10 2StartScenario5 2@6 2Transfer7 0&Encryp'Status* 0FindFirstFreeAce 0FlushEfsCache1 Trace*4
 0Free)&(<1 3Metadata1 Encryp'Certific`HashList1 InheritedFromArray3 Sid1 0GetAccessPermissionsFor>*9 Ace3 Acl#4
 AuditedPermissionsFromAcl*4 CurrentHwProfile*1 EffectiveRightsFromAcl*3 )&Metadata3 |Log#5 ExplicitEntriesFromAcl*3
 &%*5 #CodeAuthzLevelW5 4]W6 InheritanceSource*10 Kernel>%5 LengthSid1 LocalManagedApplica'Data3 3Applica's3
 ManagedApplica'C`gories 2Applica's5 MultipleTrustee*1 3Opera'*1 +d%<*8 4Ex*9 NumberOf|LogRecords Oldest|LogRecord
 OverlappedAccessResults4 Priv`>%5 %~Control3 3Dacl4 3Group3 3Length1 3Owner3 3RMControl 3Sacl4 2<8 3Ex*9 ,Display+*4
 2(+*4 SidIdentifierAuthority1 2LengthRequired1 2SubAuthority 4Count1 =WaitChain7 Token#5 TraceEnableFlags 3Level
 2Logger^1 TrusteeForm*1 2+*1 2Type*1 User+* WindowsAccountDomainSid3 0I_QueryTag#3 ScGetCurrentGroupSt`W3 2Is%:0
 2PnPGet,+3 2Query,Config3 2SendPnPMessage6 3TSMessage4 2Set,Bits*5 2Valid`PnP,3 0IdentifyCodeAuthzLevelW4
 0Imperson`AnonymousToken1 LoggedOnUser1 +dPipeClient1 Self1 0InitializeAcl3 %~ Sid3 0Initi`Shutdown*5 /Shutdown*5
 3Ex*6 0InstallApplica'1 0IsTextUnicode3 TokenRestricted1 2Untrusted1 ValidAcl1 2Relative%~3 2%~1 2Sid1 WellKnownSid
 0Lock,Database1 0LogonUser*6 2Ex*10 3ExW11 0LookupAccount+*7 2Sid*7 PrivilegeDisplay+*5 2+*4 2[*3 %~Parts*7
 0LsaAddAccountRights4 2PrivilegesToAccount ClearAuditLog1 Close1 Cre`Account4 2Secret4 2TrustedDomain4 4Ex5 Delete1
 2TrustedDomain Enumer`AccountRights4 2Accounts5 3WithUserRight4 2Privileges5 3OfAccount 2TrustedDomains5 4Ex5
 FreeMemory1 GetQuotasForAccount 2RemoteUser+3 2/AccessAccount 2User+ ICLookup+s10 5WithCreds12 4Sids9 5WithCreds12
 Lookup+s5 2+s2.6 2PrivilegeDisplay+4 3+3 3[3 2Sids5 ManageSid+Mapping3 NtStatusToWinError1 OpenAccount4 2]4 3Sce4
 2Secret4 2TrustedDomain4 4By+4 QueryDomain#]3 2ForestTrust#3 2<TrustedDomain3 2#]3 2Secret5 2%>3 2TrustedDomain<4
 5By+4 RemoveAccountRights5 2PrivilegesFromAccount3 RetrievePriv`Data3 SetDomain#]3 2ForestTrust#5 2#]3
 3TrustedDomain3 2QuotasForAccount 2Secret3 2%>3 2/AccessAccount 2TrustedDomain<By+4 4#4 StorePriv`Data3 0MD4Final1
 2Init1 2Upd`3 D5Final1 2Init1 2Upd`3 SChapSrvChangePassword7 5Password2.7 0MakeAbsoluteSD11 3D2. SelfRelativeSD3
 0MapGenericMask 0NotifyBootConfigStatus1 Change|Log ,StatusChange3 3Change*3 0>CloseAuditAlarm*3 DeleteAuditAlarm*3
 OpenAuditAlarm*12 PrivilegeAuditAlarm*6 0OpenBackup|Log* )&Raw*3 |Log* :Token3 SCManager*3 ,*3 =Token4
 2WaitChainSession Trace*1 0PerfAddCounters3 CloseQuery^1 Cre`Instance4 DecrementULongCounter[4 4LongCounter[5
 DeleteCounters3 2Instance Enumer`CounterSet4 4Instances5 IncrementULongCounter[4 4LongCounter[5 OpenQuery^
 QueryCounterData4 3<4 3SetRegistra'<7 2Instance4 SetCounterRef[4 3Set<3 2ULongCounter[4 4LongCounter[5 StartProvider3
 3Ex3 StopProvider1 0PrivilegeCheck3 0Privileged,AuditAlarm*5 0:IdleTasks0 3W4 Trace4 0QueryAllTraces*3
 RecoveryAgentsOn)& %AccessMask ,Config*4 2Config2*5 2LockStatus*4 2>%5 2Status 3Ex5 Trace*4 UsersOn)& 0Read)&Raw3
 |Log*7 0RegClose(1 ConnectRegistry*3 3Ex*4 CopyTree*3 Cre`(*3 3Ex*9 3?*11 Delete(* 3Ex*4 3?*6 3[*3 2Tree* 2[*
 DisablePredefinedCache0 4Ex0 2Reflec'(1 EnableReflec'(1 Enum(*4 3Ex*8 2[*8 Flush(1 Get(%4 2[*7 LoadApp(*5 2(*3
 2MUI@*7 NotifyChange([5 OpenCurrentUser 2(*3 3Ex*5 3?*7 2UserClassesRoot4 OverridePredef( Query<(*12
 2MultipleValues*5 2Reflec'( 2[*4 3Ex*6 Rename(3 Replace(*4 Restore(*3 Save(*3 3Ex*4 Set(%3 3[*6 2[*5 3Ex*6 UnLoad(*
 0Register|Source* IdleTask4 ,Ctrl^r* 4Ex*3 TraceGuids*8 WaitChainCOM- 0RemoveTrace-1 UsersFrom)& 0Report|*9
 0RevertToSelf0 0SaferCloseLevel1 ComputeTokenFromLevel5 Cre`Level5 GetLevel#5 2]#6 IdentifyLevel4 Record|LogEntry3
 SetLevel#4 2]#5 0SaferiChangeRegistryScope CompareTokenLevels3 IsDllAllowed3 2Executable&Type
 Popul`DefaultsInRegistry Record|LogEntry3 RegisterExtensionDll SearchMatchingHashRules6 0SetAcl#4 )&Metadata6
 EntriesInAccessList*6 3Acl*4 3AuditList*6 &%*3 #CodeAuthzLevelW4 4]W5 Kernel>%3 +d%<*7 4Ex*9 Priv`>%5 4Ex6
 %AccessMask 2~Control3 3Dacl4 3Group3 3Owner3 3RMControl 3Sacl4 2<7 3Ex*9 ,Bits4 2>%3 2Status =Token Token#4 Trace-
 User&Encryp'(1 5Ex4 0Start,*3 2CtrlDispatcher*1 Trace*3 0StopTrace*4 0/$001.3 $002.3 $003. $004.3 $005.3 $006. $007.
 $008.3 $009.3 $010.3 $011.3 $012.3 $013.3 $014.3 $015.3 $016.3 $017.3 $018.3 $019.3 $020.3 $021.3 $022.3 $023.3
 $024.3 $025.3 $026.3 $027.3 $028. $029. $030. $031. $032. $033. $034.3 $035.1 $036. $040.3 $041.3 0Trace|3 2Instance5
 Message0 2Va6 Set#5 0TreeReset+d%<*11 Set+d%<*11 0TrusteeAccessTo>*6 0UninstallApplica' 0Unlock,Database1
 0UnregisterIdleTask3 TraceGuids 0Upd`Trace*4 0UsePinFor)&s*3 0WmiCloseBlock1 DevInstToInstance+*4 Enumer`Guids
 ExecuteMethod*7 &^ToInstance+*4 FreeBuffer1 MofEnumer`Resources*3 Notifica'Registra'*5 OpenBlock3 QueryAllData*3
 4Multiple*4 2Guid# 2SingleInstance*4 4Multiple*5 ReceiveNotifica's*4 SetSingleInstance*5 3Item*6 0Write)&Raw3"

end SymExec.WindowsFunctions

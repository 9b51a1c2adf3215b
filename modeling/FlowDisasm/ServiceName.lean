/-!
# Names of device drivers and their services

The first drivers have fixed numbers from one on, and the services of the virtual machine manager are
numbered from zero. The lists are in the order of the numbers.
-/
namespace FlowDisasm.ServiceName

def managerNumber : UInt16 := 1

/-- The drivers with fixed numbers, from number one on. -/
def drivers : List String :=
  ["VMM", "Debug", "VPICD", "VDMAD", "VTD", "V86MMGR", "PageSwap", "Parity", "Reboot", "VDD",
    "VSD", "VMD", "VKD", "VCD", "VPD", "BlockDev", "VMCPD", "EBIOS", "BIOSXlat", "VNETBIOS",
    "DOSMGR", "WINLOAD", "SHELL", "VMPoll", "VPROD", "DOSNET", "VFD", "VDD2", "WINDEBUG",
    "TSRLoad", "BiosHook", "Int13", "PageFile", "SCSI", "MCA_POS", "SCSIFD", "VPEND", "APM"]

/-- The services of the virtual machine manager, from number zero on. -/
def managerServices : List String :=
  ["Get_VMM_Version", "Get_Cur_VM_Handle", "Test_Cur_VM_Handle", "Get_Sys_VM_Handle",
    "Test_Sys_VM_Handle", "Validate_VM_Handle", "Get_VMM_Reenter_Count",
    "Begin_Reentrant_Execution", "End_Reentrant_Execution", "Install_V86_Break_Point",
    "Remove_V86_Break_Point", "Allocate_V86_Call_Back", "Allocate_PM_Call_Back",
    "Call_When_VM_Returns", "Schedule_Global_Event", "Schedule_VM_Event", "Call_Global_Event",
    "Call_VM_Event", "Cancel_Global_Event", "Cancel_VM_Event", "Call_Priority_VM_Event",
    "Cancel_Priority_VM_Event", "Get_NMI_Handler_Addr", "Set_NMI_Handler_Addr", "Hook_NMI_Event",
    "Call_When_VM_Ints_Enabled", "Enable_VM_Ints", "Disable_VM_Ints", "Map_Flat",
    "Map_Lin_To_VM_Addr", "Adjust_Exec_Priority", "Begin_Critical_Section",
    "End_Critical_Section", "End_Crit_And_Suspend", "Claim_Critical_Section",
    "Release_Critical_Section", "Call_When_Not_Critical", "Create_Semaphore", "Destroy_Semaphore",
    "Wait_Semaphore", "Signal_Semaphore", "Get_Crit_Section_Status", "Call_When_Task_Switched",
    "Suspend_VM", "Resume_VM", "No_Fail_Resume_VM", "Nuke_VM", "Crash_Cur_VM",
    "Get_Execution_Focus", "Set_Execution_Focus", "Get_Time_Slice_Priority",
    "Set_Time_Slice_Priority", "Get_Time_Slice_Granularity", "Set_Time_Slice_Granularity",
    "Get_Time_Slice_Info", "Adjust_Execution_Time", "Release_Time_Slice", "Wake_Up_VM",
    "Call_When_Idle", "Get_Next_VM_Handle", "Set_Global_Time_Out", "Set_VM_Time_Out",
    "Cancel_Time_Out", "Get_System_Time", "Get_VM_Exec_Time", "Hook_V86_Int_Chain",
    "Get_V86_Int_Vector", "Set_V86_Int_Vector", "Get_PM_Int_Vector", "Set_PM_Int_Vector",
    "Simulate_Int", "Simulate_Iret", "Simulate_Far_Call", "Simulate_Far_Jmp", "Simulate_Far_Ret",
    "Simulate_Far_Ret_N", "Build_Int_Stack_Frame", "Simulate_Push", "Simulate_Pop",
    "_HeapAllocate", "_HeapReAllocate", "_HeapFree", "_HeapGetSize", "_PageAllocate",
    "_PageReAllocate", "_PageFree", "_PageLock", "_PageUnLock"]

def driver? (number : UInt16) : Option String :=
  if number = 0 then none else drivers[number.toNat - 1]?

def managerService? (number : UInt16) : Option String :=
  managerServices[number.toNat]?

end FlowDisasm.ServiceName
